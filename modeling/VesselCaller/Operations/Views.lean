import VesselCaller.Tenant

/-!
# The call and inspection endpoints

`VesselCallsView`, `VesselCallDetailView`, `VesselCallCancelView`, `InspectionsView`,
`InspectionDetailView`, `InspectionFinalizeView`, and the service behind the last,
`api.domain.finalize_inspection`, which bills a completed inspection.

New calls and inspections go to the front of their tables: both models order by
their creation instant, newest first.

## Main definitions

* `createCall`, `patchCall`, `cancelCall` — calls;
* `createInspection`, `patchInspection`, `finalizeView` — inspections;
* `billInspection` — the service that bills.
-/

namespace VesselCaller.Operations

open Lib Accounts Billing

/-- `_check_version`: a request may leave the version out. -/
def checkVersion (version : ℕ) (provided : Option ℕ) : Result Unit :=
  raiseIf (provided.any (· ≠ version) = true)
    (.conflict "The resource changed. Refresh and try again")

/-- `_check_version` of a version no serializer has read: it is compared as it came, so a text
is no version at all. -/
def checkRawVersion (version : ℕ) (provided : Json) : Result Unit :=
  raiseIf (¬(provided matches .null) ∧ provided.isNat version = false)
    (.conflict "The resource changed. Refresh and try again")

/-! ## Vessel calls -/

/-- A `VesselCallSerializer` body.  The status field does not offer `cancelled`. -/
structure CallInput where
  vesselName : Option String := none
  reference : Option String := none
  type : Option String := none
  flag : Option String := none
  nrt : Option (Decimal 3) := none
  eta : Option (Option Instant) := none
  sailingEta : Option (Option Instant) := none
  berth : Option String := none
  berthDate : Option (Option Date) := none
  status : Option CallStatus := none
  notes : Option String := none
  version : Option ℕ := none
  deriving DecidableEq, Repr

/-- The fields `VesselCallSerializer` refuses. -/
def CallInput.isValid (d : CallInput) : Bool :=
  d.vesselName.all (charField 255 false) && d.reference.all (charField 100 false) &&
  d.type.all (charField 100 true) && d.flag.all (charField 100 true) &&
  d.nrt.all (decimalField 16) && d.berth.all (charField 255 true) &&
  d.status.all (· ≠ .cancelled) && d.version.all (1 ≤ ·)

/-- `serializer.is_valid(raise_exception=True)`. -/
def requireValid (ok : Bool) : Result Unit :=
  raiseIf (ok = false) (.validation "" "Invalid input.")

/-- `VesselCallsView.post`. -/
def createCall (t : Tenant) (ctx : Ctx) (data : CallInput) : Result (Tenant × VesselCall) := do
  requireValid data.isValid
  let vesselName ← orRaise data.vesselName (.validation "vesselName" "This field is required")
  let reference ← orRaise data.reference (.validation "reference" "This field is required")
  raiseIf (reference ∈ t.calls.map VesselCall.reference)
    (.conflict ("Rotation number " ++ reference ++ " is already registered"))
  raiseIf (ctx.uuid 0 ∈ Table.keys t.calls) (.integrity "operations_vesselcall_pkey")
  let call : VesselCall := {
    id := ctx.uuid 0
    vesselName := vesselName
    reference := reference
    vesselType := data.type.getD ""
    flag := data.flag.getD ""
    nrt := data.nrt.getD 0
    eta := data.eta.getD none
    sailingEta := data.sailingEta.getD none
    berth := data.berth.getD ""
    berthDate := data.berthDate.getD none
    status := .pending
    notes := data.notes.getD ""
    cancellationReason := ""
    cancelledAt := none
    version := 1
    registeredAt := ctx.now }
  return ({ t with calls := call :: t.calls }.bumpRevision, call)

/-- The call that `VesselCallDetailView._get` locks. -/
def getCall (t : Tenant) (callId : Id) : Result VesselCall :=
  orRaise (Table.get callId t.calls) (.notFound "Vessel call not found")

/-- `VesselCallDetailView.patch`, also behind the status endpoint. -/
def patchCall (t : Tenant) (callId : Id) (data : CallInput) : Result (Tenant × VesselCall) := do
  requireValid data.isValid
  let call ← getCall t callId
  raiseIf (call.status = .cancelled) (.conflict "A cancelled call cannot be edited")
  checkVersion call.version data.version
  let call := { call with
    vesselName := data.vesselName.getD call.vesselName
    reference := data.reference.getD call.reference
    vesselType := data.type.getD call.vesselType
    flag := data.flag.getD call.flag
    nrt := data.nrt.getD call.nrt
    eta := data.eta.getD call.eta
    sailingEta := data.sailingEta.getD call.sailingEta
    berth := data.berth.getD call.berth
    berthDate := data.berthDate.getD call.berthDate
    status := data.status.getD call.status
    notes := data.notes.getD call.notes
    version := call.version + 1 }
  raiseIf (t.calls.any (fun c => c.id ≠ call.id && c.reference = call.reference) = true)
    (.integrity "operations_unique_rotation")
  return ({ t with calls := Table.put call t.calls }.bumpRevision, call)

/-- `VesselCallCancelView.post`: cancelling a cancelled call changes nothing. -/
def cancelCall (t : Tenant) (ctx : Ctx) (callId : Id) (reason : String)
    (version : Option ℕ) : Result (Tenant × VesselCall) := do
  requireValid (3 ≤ reason.length && version.all (1 ≤ ·))
  let call ← getCall t callId
  checkVersion call.version version
  raiseIf (call.status = .completed) (.conflict "A completed call cannot be cancelled")
  if call.status = .cancelled then return (t, call)
  else
    let call := { call with
      status := .cancelled
      cancellationReason := reason
      cancelledAt := some ctx.now
      version := call.version + 1 }
    return ({ t with calls := Table.put call t.calls }.bumpRevision, call)

/-! ## Inspections -/

/-- An `InspectionSerializer` body. -/
structure InspectionInput where
  callId : Option Id := none
  cargoType : Option CargoType := none
  product : Option String := none
  reconciledTonnage : Option (Decimal 3) := none
  jetty : Option Json := none
  liquid : Option Json := none
  dry : Option Json := none
  version : Option ℕ := none
  completed : Bool := false

def InspectionInput.isValid (d : InspectionInput) : Bool :=
  d.reconciledTonnage.all (decimalField 16) && d.version.all (1 ≤ ·)

/-- The invoice of an inspection. -/
def invoiceOfInspection (invoices : List Invoice) (inspection : Id) : Option Invoice :=
  invoices.find? fun i => i.inspectionId = some inspection

/-- The range of a monetary column of eighteen digits. -/
def overflows (v : Decimal 2) : Bool := 10 ^ 18 ≤ v

/-- The invoice `finalize_inspection` creates. -/
def harbourInvoice (ctx : Ctx) (settings : OrganizationSettings) (call : VesselCall)
    (inspection : Inspection) (rate : Decimal 4) (number : String) (step : InvoiceStatusStep) :
    Invoice :=
  let dues := money 5 (call.nrt * rate)
  let commissionUsd := money 6 (dues * settings.commissionRate)
  { id := ctx.uuid 1
    vesselCallId := call.id
    inspectionId := some inspection.id
    purpose := .harbourDues
    currency := "USD"
    payer := ""
    reconciliationId := none
    assessmentId := none
    lineItems := []
    invoiceNo := number
    cargoType := match inspection.cargoType with
      | .liquid => .liquid
      | .dry => .dry
    issuedOn := ctx.utcdate
    dueOn := ctx.utcdate + 14
    status := .unpaid
    currentStatus := some step.id
    dues := dues
    rate := rate
    commissionUsd := commissionUsd
    commissionNgn := money 4 (commissionUsd * settings.exchangeRate)
    exchangeRate := settings.exchangeRate
    payments := []
    events := [statusEvent ctx none (some step) .created none
      "Invoice created from completed inspection"] }

/-- The inspection and its call once completed. -/
def Inspection.complete (i : Inspection) (ctx : Ctx) : Inspection :=
  { i with
    status := .completed
    completedAt := some ctx.now
    version := i.version + 1
    updatedAt := ctx.now }

def VesselCall.complete (c : VesselCall) (ctx : Ctx) : VesselCall :=
  { c with
    status := .completed
    berthDate := some (c.berthDate.getD ctx.localdate)
    version := c.version + 1 }

/-- `finalize_inspection` of an inspection without an invoice. -/
def billInspection (t : Tenant) (ctx : Ctx) (inspection : Inspection) :
    Result (Tenant × Inspection × Invoice) := do
  let call ← orRaise (Table.get inspection.vesselCallId t.calls)
    (.server "VesselCall.DoesNotExist")
  let inspection := inspection.complete ctx
  let call := call.complete ctx
  let rate ← rateForInspection inspection t.settings
  let (number, sequences) := nextNumber ctx t.sequences .invoice "INV"
  let (step, steps) ← activeDefaultStep ctx t.steps
  raiseIf (ctx.uuid 1 ∈ Table.keys t.invoices) (.integrity "billing_invoice_pkey")
  let invoice := harbourInvoice ctx t.settings call inspection rate number step
  raiseIf (overflows invoice.dues = true ∨ overflows invoice.commissionUsd = true ∨
      overflows invoice.commissionNgn = true) (.server "numeric field overflow")
  let t := { t with
    inspections := Table.put inspection t.inspections
    calls := Table.put call t.calls
    steps := steps
    sequences := sequences
    invoices := invoice :: t.invoices }
  return (t.bumpRevision, inspection, invoice)

/-- `finalize_inspection`: an invoiced inspection is returned with its invoice. -/
def finalizeInspection (t : Tenant) (ctx : Ctx) (inspection : Inspection) :
    Result (Tenant × Inspection × Invoice) :=
  match invoiceOfInspection t.invoices inspection.id with
  | some existing => pure (t, inspection, existing)
  | none => billInspection t ctx inspection

inductive Response where
  | call (data : CallData) (rev : ℕ)
  | inspection (data : InspectionData) (rev : ℕ)
  /-- A replayed creation: the invoice is `none` while the inspection is a draft. -/
  | replay (data : InspectionData) (invoice : Option InvoiceData) (rev : ℕ)
  | finalized (data : InspectionData) (invoice : InvoiceData) (call : CallData) (rev : ℕ)

/-- The response of a finalization. -/
def finalizedResponse (t : Tenant) (inspection : Inspection) (invoice : Invoice) :
    Result (Tenant × Response) := do
  let data ← inspectionData inspection
  let call ← orRaise (Table.get invoice.vesselCallId t.calls) (.server "VesselCall.DoesNotExist")
  return (t, .finalized data (t.invoiceData invoice) call t.revision)

/-- The serializer does not bound the product; its column does. -/
def columnWidth (i : Inspection) : Result Unit :=
  raiseIf (100 < i.product.length) (.server "value too long for type character varying(100)")

/-- The draft `InspectionsView.post` creates. -/
def draftInspection (ctx : Ctx) (call : VesselCall) (data : InspectionInput) (number : String)
    (idempotencyKey : String) : Inspection where
  id := ctx.uuid 0
  vesselCallId := call.id
  reference := number
  vesselName := call.vesselName
  cargoType := data.cargoType.getD .liquid
  product := data.product.getD ""
  reconciledTonnage := data.reconciledTonnage.getD 0
  jetty := data.jetty.getD .null
  liquid := data.liquid.getD .null
  dry := data.dry.getD .null
  status := .draft
  idempotencyKey := idempotencyKey
  version := 1
  completedAt := none
  createdAt := ctx.now
  updatedAt := ctx.now

/-- The inspection an idempotency key already names. -/
def replayed (t : Tenant) (idempotencyKey : String) : Option Inspection :=
  if idempotencyKey = "" then none
  else t.inspections.find? fun i => i.idempotencyKey = idempotencyKey

/-- The part of `InspectionsView.post` that writes: the draft, the call in progress,
and the finalization the request may ask for. -/
def insertInspection (t : Tenant) (ctx : Ctx) (call : VesselCall) (data : InspectionInput)
    (idempotencyKey : String) : Result (Tenant × Response) := do
  raiseIf (ctx.uuid 0 ∈ Table.keys t.inspections) (.integrity "operations_inspection_pkey")
  let (number, sequences) := nextNumber ctx t.sequences .inspection "INS"
  let inspection := draftInspection ctx call data number idempotencyKey
  columnWidth inspection
  let call := { call with status := .inProgress, version := call.version + 1 }
  let t := { t with
    sequences := sequences
    inspections := inspection :: t.inspections
    calls := Table.put call t.calls }.bumpRevision
  let shown ← inspectionData inspection
  if data.completed then do
    let (t, inspection, invoice) ← finalizeInspection t ctx inspection
    finalizedResponse t inspection invoice
  else return (t, .inspection shown t.revision)

/-- `InspectionsView.post`.  The header is cut to 128 characters. -/
def createInspection (t : Tenant) (ctx : Ctx) (data : InspectionInput) (header : String) :
    Result (Tenant × Response) := do
  requireValid data.isValid
  let callId ← orRaise data.callId (.validation "callId" "This field is required")
  let call ← getCall t callId
  raiseIf (call.status = .cancelled) (.conflict "A cancelled call cannot be inspected")
  let idempotencyKey := String.ofList (header.toList.take 128)
  match replayed t idempotencyKey with
  | some existing => do
      let shown ← inspectionData existing
      return (t, .replay shown
        ((invoiceOfInspection t.invoices existing.id).map t.invoiceData) t.revision)
  | none => insertInspection t ctx call data idempotencyKey

def getInspection (t : Tenant) (inspectionId : Id) : Result Inspection :=
  orRaise (Table.get inspectionId t.inspections) (.notFound "Inspection not found")

/-- `InspectionDetailView.patch`. -/
def patchInspection (t : Tenant) (ctx : Ctx) (inspectionId : Id) (data : InspectionInput) :
    Result (Tenant × Response) := do
  requireValid data.isValid
  let inspection ← getInspection t inspectionId
  raiseIf (inspection.status ≠ .draft) (.conflict "Only draft inspections can be edited")
  checkVersion inspection.version data.version
  let _before ← inspectionData inspection
  let inspection := { inspection with
    cargoType := data.cargoType.getD inspection.cargoType
    product := data.product.getD inspection.product
    reconciledTonnage := data.reconciledTonnage.getD inspection.reconciledTonnage
    jetty := data.jetty.getD inspection.jetty
    liquid := data.liquid.getD inspection.liquid
    dry := data.dry.getD inspection.dry
    version := inspection.version + 1
    updatedAt := ctx.now }
  columnWidth inspection
  let shown ← inspectionData inspection
  let t := { t with inspections := Table.put inspection t.inspections }.bumpRevision
  return (t, .inspection shown t.revision)

/-- `InspectionFinalizeView.post`, with `request.data.get('version')`. -/
def finalizeView (t : Tenant) (ctx : Ctx) (inspectionId : Id) (version : Json) :
    Result (Tenant × Response) := do
  let inspection ← getInspection t inspectionId
  checkRawVersion inspection.version version
  let (t, inspection, invoice) ← finalizeInspection t ctx inspection
  finalizedResponse t inspection invoice

/-! ## The organization's state -/

/-- What `StateView.get` answers when the client's revision is not the current one. -/
structure StateData where
  rev : ℕ
  org : OrganizationData
  members : List UserData
  settings : SettingsData
  calls : List CallData
  inspections : List InspectionData
  invoices : List InvoiceData
  invoiceStatusSteps : List WorkflowStepData

/-- `StateView.get`: `none` says that nothing changed.  The steps it provisions are
written even then. -/
def stateView (t : Tenant) (ctx : Ctx) (user : User) (requestedRev : Option String) :
    Result (Tenant × Option StateData) := do
  let steps ← ensureDefaultSteps ctx t.steps
  let t := { t with steps := steps }
  if requestedRev = some (toString t.revision) then return (t, none)
  else
    let inspections ← t.inspections.mapM inspectionData
    return (t, some {
      rev := t.revision
      org := organizationData t.organization
      members := if user.role = .admin then t.users.map (userData t.toAccountScope ctx.now) else []
      settings := t.settings
      calls := t.calls
      inspections := inspections
      invoices := (t.invoices.mergeSort fun v w => w.issuedOn ≤ v.issuedOn).map t.invoiceData
      invoiceStatusSteps :=
        (sortBy InvoiceStatusStep.position t.steps).map invoiceStatusStepData })

/-! ## Requests -/

inductive Op where
  | createCall (data : CallInput)
  | patchCall (call : Id) (data : CallInput)
  | cancelCall (call : Id) (reason : String) (version : Option ℕ)
  | createInspection (data : InspectionInput) (header : String)
  | patchInspection (inspection : Id) (data : InspectionInput)
  | finalizeInspection (inspection : Id) (version : Json)

def Op.permission : Op → Permission
  | .createCall .. | .patchCall .. | .cancelCall .. => .callsManage
  | .createInspection .. | .patchInspection .. | .finalizeInspection .. => .inspectionsManage

/-- The response of a call mutation. -/
def callResponse (result : Tenant × VesselCall) : Tenant × Response :=
  (result.1, .call result.2 result.1.revision)

/-- The handler of an authorized request. -/
def Op.handle (t : Tenant) (ctx : Ctx) : Op → Result (Tenant × Response)
  | .createCall data => do
      let result ← Operations.createCall t ctx data
      return callResponse result
  | .patchCall callId data => do
      let result ← Operations.patchCall t callId data
      return callResponse result
  | .cancelCall callId reason version => do
      let result ← Operations.cancelCall t ctx callId reason version
      return callResponse result
  | .createInspection data header => Operations.createInspection t ctx data header
  | .patchInspection inspectionId data => Operations.patchInspection t ctx inspectionId data
  | .finalizeInspection inspectionId version => finalizeView t ctx inspectionId version

end VesselCaller.Operations
