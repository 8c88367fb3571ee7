import VesselCaller.Closeout.Calculation
import VesselCaller.Lib.Fallible
import VesselCaller.Lib.Service

/-!
# Close-out previews

`measurements/closeoutPreview.ts`: the reports, draft invoices and paid declarations of the
voyages of an organization, which the browser keeps in its local storage under one key.

A call reads the whole storage item, changes the record of one voyage and writes the item
back; nothing else runs in between, in any tab.  The changes work on a parsed copy, so a call
that raises leaves no trace.  `perform` is one call with the storage after it.

Values are typed, and the `typeof` checks of the validators hold by that; what is left of
the validators is what they ask of the values.  A property that is absent is `none`, as
`JSON.stringify` drops what is `undefined`.

## Main definitions

* `CloseoutRecord`, with its `PreviewReport`s, `PreviewInvoice`s and `PreviewEvent`s;
* `voyageInputFingerprint`, `currentReport` — when a report still stands;
* `validRecord`, `readPreviews`, `mutate` — what is read from the storage, and written to it.
-/

namespace VesselCaller.Closeout

open Lib
open Measurements (PlanStatus)

/-! ## Records -/

/-- Reports saved before the review step have no status and were approved directly. -/
inductive PreviewReportStatus where
  | submitted
  | approved
  | returned
  deriving DecidableEq, Repr

structure PreviewReport where
  id : String
  callId : String
  revision : ℤ
  sourceFingerprint : String
  status : Option PreviewReportStatus
  preparedAt : Option String
  preparedBy : Option Actor
  approvedAt : Option String
  approvedBy : Option Actor
  returnedAt : Option String
  returnedBy : Option Actor
  returnComment : Option String
  reason : String
  lines : List PreviewReportLine
  sourcePlans : List MeasurementPlan
  deriving DecidableEq, Repr

inductive PaymentStatus where
  | paid
  | unconfirmed
  deriving DecidableEq, Repr

/-- What an invoice takes over from its input. -/
structure PreviewInvoiceTerms where
  payer : String
  currency : String
  tariffReference : String
  originalInvoiceReference : String
  paymentStatus : PaymentStatus
  originalPaidAmount : String
  previousVariationReference : String
  deriving DecidableEq, Repr

structure PreviewInvoiceInput extends PreviewInvoiceTerms where
  lines : List PreviewInvoiceLineInput
  deriving DecidableEq, Repr

structure PreviewInvoice extends PreviewInvoiceTerms where
  id : String
  callId : String
  number : String
  reportId : String
  createdAt : String
  createdBy : Actor
  status : PreviewInvoiceStatus
  lines : List PreviewInvoiceLine
  total : String
  deriving DecidableEq, Repr

inductive PreviewEventAction where
  | reportSubmitted
  | reportReturned
  | reportApproved
  | invoiceDrafted
  | noChargeRecorded
  | overpaymentFlagged
  | billingHeld
  deriving DecidableEq, Repr

structure PreviewEvent where
  id : String
  callId : String
  at_ : String
  actor : Actor
  action : PreviewEventAction
  reference : String
  deriving DecidableEq, Repr

structure PaidDeclarationInput where
  payer : String
  agent : String
  invoiceReference : String
  amountPaid : String
  currency : String
  paidOn : String
  paymentStatus : PaymentStatus
  deriving DecidableEq, Repr

structure PaidDeclaration extends PaidDeclarationInput where
  updatedAt : String
  updatedBy : Actor
  deriving DecidableEq, Repr

structure CloseoutRecord where
  callId : String
  reports : List PreviewReport
  invoices : List PreviewInvoice
  events : List PreviewEvent
  declaration : Option PaidDeclaration
  deriving DecidableEq, Repr

instance : Keyed CloseoutRecord String := ⟨CloseoutRecord.callId⟩

/-! ## Inputs -/

/-- What the fingerprint prints of a plan. -/
structure PlanInputs where
  id : String
  callId : String
  version : ℤ
  title : String
  scope : String
  lines : List CargoLine
  participants : List Participant
  returns : List Submission
  reconciliations : List Reconciliation

/-- What the previews use of the browser: the collation (`a.localeCompare(b) <= 0`), the JSON
text of the inputs, the encoding of a key, and the last eight characters of a call's key in
capitals. -/
structure Runtime where
  localeLe : String → String → Bool
  stringify : List PlanInputs → String
  encodeURIComponent : String → String
  callSuffix : String → String

/-- What a call brings along: the readings of the clock, the keys it draws, whether the
storage can be read, and the error that writing it raises. -/
structure Moment where
  now : ℕ → String
  uuid : ℕ → String
  readable : Bool
  writeError : Option String

section Inputs

variable (rt : Runtime)

def activePlans (plans : List MeasurementPlan) : List MeasurementPlan :=
  (plans.filter fun plan => plan.status ≠ .cancelled).insertionSort
    fun a b => rt.localeLe a.id b.id = true

def planInputs (plan : MeasurementPlan) : PlanInputs where
  id := plan.id
  callId := plan.callId
  version := plan.version
  title := plan.title
  scope := plan.scope
  lines := plan.lines
  participants := plan.participants
  returns := (latestReturns plan).insertionSort
    fun a b => rt.localeLe a.participantId b.participantId = true
  reconciliations := plan.reconciliations

def voyageInputFingerprint (plans : List MeasurementPlan) : String :=
  rt.stringify ((activePlans rt plans).map (planInputs rt))

def reportStatus (report : PreviewReport) : PreviewReportStatus := report.status.getD .approved

def matchesInputs (report : PreviewReport) (plans : List MeasurementPlan) : Bool :=
  report.sourceFingerprint = voyageInputFingerprint rt plans &&
    (activePlans rt plans).all fun plan => plan.callId = report.callId

/-- The latest approved report, while the inputs it was based on are unchanged. -/
def currentReport (plans : List MeasurementPlan) (record : CloseoutRecord) :
    Option PreviewReport :=
  (record.reports.reverse.find? fun item => reportStatus item = .approved).filter
    fun report => matchesInputs rt report plans

/-- A version waiting for a second reviewer, still based on the current inputs. -/
def pendingReport (plans : List MeasurementPlan) (record : CloseoutRecord) :
    Option PreviewReport :=
  record.reports.getLast?.filter fun report =>
    reportStatus report = .submitted && matchesInputs rt report plans

/-! ## Issues -/

/-- Whether a return answers for a cargo line. -/
def answers (reading : Submission) (line : CargoLine) : Bool :=
  match reading.lines.find? fun item => item.lineId = line.id with
  | none => false
  | some row =>
      match row.status with
      | .reported => (decimal row.quantity 6 15).isSome
      | .notApplicable => trim row.note ≠ ""

/-- The issues with the reading of a participant. -/
def readingIssues (plan : MeasurementPlan) (party : Participant) : List String :=
  match (latestReturns plan).find? fun r => r.participantId = party.id with
  | none => [party.name ++ ": reading not submitted for " ++ plan.title ++ "."]
  | some reading => (plan.lines.filter fun line => !answers reading line).map fun line =>
      party.name ++ ": complete " ++ line.description ++ " or explain why it is not applicable."

/-- The issues with one sheet. -/
def planIssues (plan : MeasurementPlan) : List String :=
  (if plan.lines = [] then [plan.title ++ ": no cargo items recorded."] else []) ++
  ((plan.lines.filter fun line => decimal line.manifestQuantity 6 15 = none).map fun line =>
    line.description ++ ": owner declaration is missing or invalid.") ++
  (plan.participants.filter (·.requiredSubmission)).flatMap (readingIssues plan)

def reconciliationIssues (plans : List MeasurementPlan) : List String :=
  if activePlans rt plans = [] then
    ["Add an owner declaration and agency readings before reconciliation."]
  else (activePlans rt plans).flatMap planIssues

end Inputs

/-! ## Valid records -/

/-- A number of at most two decimals, up to thirty-two digits before them. -/
def validMoney (value : String) : Bool := (decimal (some value) 2 32).isSome

def validSourcePlan (plan : MeasurementPlan) (callId : String) : Bool :=
  plan.callId = callId &&
  (plan.lines.all fun line => (decimal line.manifestQuantity 6 15).isSome) &&
  plan.submissions.all fun submission => submission.lines.all fun line =>
    line.quantity = none || (decimal line.quantity 6 15).isSome

def validInvoiceLine (line : PreviewInvoiceLine) : Bool :=
  (decimal (some line.declaredQuantity) 6 15).isSome &&
  (decimal (some line.finalQuantity) 6 15).isSome &&
  (decimal (some (dropSign line.variance)) 6 15).isSome &&
  (decimal (some line.rate) 4 15).isSome &&
  (decimal (some line.previousVariationAmount) 2 15).isSome &&
  validMoney line.amount && validMoney line.entitlement

def validReportLine (line : PreviewReportLine) : Bool :=
  (decimal (some line.quantity) 6 15).isSome && (decimal line.declaredQuantity 6 15).isSome

def validReport (report : PreviewReport) (callId : String) : Bool :=
  report.callId = callId &&
  (report.status = none || (report.preparedAt.isSome && report.preparedBy.isSome)) &&
  (reportStatus report ≠ .approved || (report.approvedAt.isSome && report.approvedBy.isSome)) &&
  (reportStatus report ≠ .returned ||
    (report.returnedAt.isSome && report.returnedBy.isSome && report.returnComment.isSome)) &&
  report.lines.all validReportLine &&
  report.sourcePlans.all fun plan => validSourcePlan plan callId

def currencies : List String := ["USD", "NGN"]

theorem usd_mem_currencies : "USD" ∈ currencies := by decide

def validDeclaration (value : Option PaidDeclaration) : Bool :=
  value.all fun d => d.currency ∈ currencies && (d.amountPaid = "" || validMoney d.amountPaid)

def validInvoice (record : CloseoutRecord) (invoice : PreviewInvoice) : Bool :=
  invoice.callId = record.callId &&
  (record.reports.any fun report => report.id = invoice.reportId) &&
  invoice.currency ∈ currencies && validMoney invoice.total &&
  (invoice.originalPaidAmount = "" || (decimal (some invoice.originalPaidAmount) 2 15).isSome) &&
  invoice.lines.all validInvoiceLine

def validRecord (record : CloseoutRecord) : Bool :=
  record.callId ≠ "" &&
  (record.reports.all fun report => validReport report record.callId) &&
  record.invoices.all (validInvoice record) &&
  (record.events.all fun event => event.callId = record.callId) &&
  validDeclaration record.declaration

/-! ## Storage -/

structure StoredPreviews where
  version : ℤ
  organizationId : String
  records : List CloseoutRecord
  deriving DecidableEq, Repr

/-- A storage item: the previews, or any other text. -/
inductive StoredText where
  | other (text : String)
  | previews (data : StoredPreviews)
  deriving DecidableEq, Repr

abbrev LocalStorage := String → Option StoredText

/-- `storage.setItem(key, text)`. -/
def LocalStorage.setItem (storage : LocalStorage) (key : String) (text : StoredText) :
    LocalStorage :=
  fun k => if k = key then some text else storage k

structure PreviewState where
  key : Option String
  records : List CloseoutRecord
  error : Option String

/-- What `readPreviews` asks of the previews it has parsed. -/
def StoredPreviews.valid (orgId : String) (data : StoredPreviews) : Bool :=
  data.version = 1 && data.organizationId = orgId && data.records.all validRecord &&
    (Table.keys data.records).Nodup

section Storage

variable (rt : Runtime)

def closeoutStorageKey (orgId : Option String) : Option String :=
  (orgId.filter fun org => trim org ≠ "").map fun org =>
    "vessel-caller:closeout-preview:v1:" ++ rt.encodeURIComponent org

/-- `readPreviews`, from the text of the item on. -/
def parsePreviews (key orgId : String) (raw : Option StoredText) : PreviewState :=
  match raw with
  | none | some (.other "") => { key := some key, records := [], error := none }
  | some (.previews data) =>
      if data.valid orgId then { key := some key, records := data.records, error := none }
      else { key := some key, records := [], error := some "Saved previews could not be read. They have been preserved; changes cannot be saved until the storage issue is resolved." }
  | some (.other _) => { key := some key, records := [], error := some "Saved previews could not be read. They have been preserved; changes cannot be saved until the storage issue is resolved." }

def readPreviews (orgId : Option String) (readable : Bool) (storage : LocalStorage) :
    PreviewState :=
  match closeoutStorageKey rt orgId with
  | none =>
      { key := none
        records := []
        error := some "Load your organisation before saving a preview." }
  | some key =>
      if readable = false then
        { key := some key
          records := []
          error := some "This browser could not read saved previews." }
      else parsePreviews key (orgId.getD "") (storage key)

/-- The record of a voyage; an empty one where there is none. -/
def recordOf (callId : String) (records : List CloseoutRecord) : CloseoutRecord :=
  (Table.get callId records).getD
    { callId := callId, reports := [], invoices := [], events := [], declaration := none }

/-- A change of a record, with what it returns. -/
abbrev Change (A : Type) := CloseoutRecord → Except String (A × CloseoutRecord)

/-- `mutate`. -/
def mutate {A : Type} (orgId : Option String) (callId : String) (moment : Moment)
    (change : Change A) (storage : LocalStorage) : LocalStorage × Except String A :=
  let state := readPreviews rt orgId moment.readable storage
  match state.key, state.error with
  | none, error => (storage, .error (error.getD "Choose a voyage before saving."))
  | some _, some error => (storage, .error error)
  | some key, none =>
      if callId = "" then (storage, .error "Choose a voyage before saving.")
      else
        match change (recordOf callId state.records) with
        | .error message => (storage, .error message)
        | .ok (result, updated) =>
            match moment.writeError with
            | some message => (storage, .error message)
            | none =>
                (storage.setItem key (.previews {
                  version := 1
                  organizationId := orgId.getD ""
                  records := (state.records.filter fun item => item.callId ≠ callId) ++
                    [updated] }), .ok result)

end Storage

end VesselCaller.Closeout
