import VesselCaller.Closeout.Preview

/-!
# The calls on the previews

`draftInvoice` and the five calls of `useCloseoutPreview`.  A preparer submits a version of
the report, a second reviewer approves or returns it, and an approved version that is still
current can be invoiced.  Each call is a `Change` of the record of its voyage, performed by
`mutate`.

For every change there is one lemma that says what it does to the record (`…_eq_ok`); the
invariants are derived from these.

## Main definitions

* `draftInvoice`, `saveDeclaration`, `submitReport`, `approveReport`, `returnReport`,
  `createInvoice` — the changes;
* `Call`, `changeOf` — a call, and the change it asks for;
* `Request`, `perform`, `handle` — a call on a storage, and the service it is a request of.
-/

namespace VesselCaller.Closeout

open Lib

/-! ## Inputs and results -/

structure ReportLineInput where
  planId : String
  lineId : String
  quantity : String
  reason : String
  deriving DecidableEq, Repr

/-- The input of `submitReport`. -/
structure ReportInput where
  reason : String
  lines : List ReportLineInput
  deriving DecidableEq, Repr

/-- The result of `approveReport`. -/
structure Approved where
  report : PreviewReport
  invoice : Option PreviewInvoice
  invoiceIssue : Option String

inductive Answer where
  | declaration (value : PaidDeclaration)
  | report (value : PreviewReport)
  | approved (value : Approved)
  | invoice (value : PreviewInvoice)

inductive Call where
  | saveDeclaration (input : PaidDeclarationInput) (actor : Actor)
  | submitReport (plans : List MeasurementPlan) (input : ReportInput) (actor : Actor)
  | approveReport (plans : List MeasurementPlan) (reportId : String) (actor : Actor)
      (invoice : Option PreviewInvoiceInput)
  | returnReport (reportId : String) (actor : Actor) (comment : String)
  | createInvoice (plans : List MeasurementPlan) (reportId : String)
      (input : PreviewInvoiceInput) (actor : Actor)

/-! ## Drafting an invoice -/

def invoiceAction : PreviewInvoiceStatus → PreviewEventAction
  | .draft => .invoiceDrafted
  | .noCharge => .noChargeRecorded
  | .overpaymentReview => .overpaymentFlagged
  | .held => .billingHeld

/-- `DRAFT-VAR-…`, with the number of the invoice among those of its voyage. -/
def draftNumber (rt : Runtime) (saved : CloseoutRecord) : String :=
  "DRAFT-VAR-" ++ rt.callSuffix saved.callId ++ "-" ++
    String.ofList ((Nat.toDigits 10 (saved.invoices.length + 1)).leftpad 3 '0')

/-- Whether an invoice says what the input and its calculation say. -/
def sameInput (latest : PreviewInvoice) (report : PreviewReport) (input : PreviewInvoiceInput)
    (calculation : Variation) : Bool :=
  latest.reportId = report.id &&
    latest.toPreviewInvoiceTerms =
      { input.toPreviewInvoiceTerms with payer := trim input.payer } &&
    latest.lines = calculation.lines

/-- The invoice an input asks for. -/
def newInvoice (rt : Runtime) (moment : Moment) (saved : CloseoutRecord)
    (report : PreviewReport) (input : PreviewInvoiceInput) (actor : Actor) : PreviewInvoice :=
  let calculation := calculateVariation report.lines input.lines
  { input.toPreviewInvoiceTerms with
    payer := trim input.payer
    lines := calculation.lines
    total := calculation.total
    status := calculation.status
    reportId := report.id
    callId := saved.callId
    id := moment.uuid 2
    number := draftNumber rt saved
    createdAt := moment.now 1
    createdBy := actor }

/-- A record with an invoice pushed, and the event of it. -/
def pushInvoice (moment : Moment) (saved : CloseoutRecord) (invoice : PreviewInvoice)
    (actor : Actor) : CloseoutRecord :=
  { saved with
    invoices := saved.invoices ++ [invoice]
    events := saved.events ++ [{
      id := moment.uuid 3
      callId := saved.callId
      at_ := invoice.createdAt
      actor := actor
      action := invoiceAction invoice.status
      reference := invoice.number }] }

/-- `draftInvoice`: the invoice, with the record that holds it. -/
def draftInvoice (rt : Runtime) (moment : Moment) (saved : CloseoutRecord)
    (report : PreviewReport) (input : PreviewInvoiceInput) (actor : Actor) :
    Except String (PreviewInvoice × CloseoutRecord) := do
  raiseIf (trim input.payer = "" ∨ trim input.originalInvoiceReference = "" ∨
      trim input.tariffReference = "")
    "Enter the payer, original invoice reference and rate reference."
  raiseIf (input.originalPaidAmount ≠ "" ∧ decimal (some input.originalPaidAmount) 2 15 = none)
    "Enter a valid original paid amount, or leave it blank if not recorded."
  raiseIf (input.currency ∉ currencies) "Choose a supported preview currency."
  let calculation := calculateVariation report.lines input.lines
  raiseSome calculation.issues.head?
  raiseIf (calculation.status = .draft ∧ input.paymentStatus ≠ .paid)
    "Record the owner's declaration as paid before creating the variation invoice preview."
  raiseIf ((input.lines.any fun line =>
      0 < (decimal (some line.previousVariationAmount) 2 15).getD 0) = true ∧
      trim input.previousVariationReference = "")
    "Enter a reference for previous variation charges."
  -- A stable input identity prevents a second draft after repeated clicks.
  match saved.invoices.getLast?.filter fun latest => sameInput latest report input calculation with
  | some latest => return (latest, saved)
  | none =>
      let invoice := newInvoice rt moment saved report input actor
      return (invoice, pushInvoice moment saved invoice actor)

/-! ## The calls -/

/-- `/^\d{4}-\d{2}-\d{2}$/`. -/
def isDateText (text : String) : Bool :=
  match text.toList with
  | [y₁, y₂, y₃, y₄, d₁, m₁, m₂, d₂, t₁, t₂] =>
      [y₁, y₂, y₃, y₄, m₁, m₂, t₁, t₂].all Char.isDigit && d₁ = '-' && d₂ = '-'
  | _ => false

def saveDeclaration (moment : Moment) (input : PaidDeclarationInput) (actor : Actor) :
    Change PaidDeclaration := fun saved => do
  raiseIf (input.currency ∉ currencies) "Choose a supported currency."
  raiseIf (trim input.amountPaid ≠ "" ∧ validMoney (trim input.amountPaid) = false)
    "Enter the amount paid as a number with up to two decimal places."
  raiseIf (input.paidOn ≠ "" ∧ isDateText input.paidOn = false)
    "Enter the payment date as a date."
  let declaration : PaidDeclaration := {
    payer := trim input.payer
    agent := trim input.agent
    invoiceReference := trim input.invoiceReference
    amountPaid := trim input.amountPaid
    currency := input.currency
    paidOn := input.paidOn
    paymentStatus := input.paymentStatus
    updatedAt := moment.now 0
    updatedBy := actor }
  return (declaration, { saved with declaration := some declaration })

/-- The reference of a report's events, `Final quantities v${revision}`. -/
def reportReference (revision : ℤ) : String := "Final quantities v" ++ toString revision

/-- The line a report takes for a cargo line of a sheet. -/
def submittedLine (input : ReportInput) (source : MeasurementPlan × CargoLine) :
    Except String PreviewReportLine := do
  let refusal := "Enter a valid final quantity for " ++ source.2.description ++ "."
  let entry ← orRaise (input.lines.find? fun item =>
    item.planId = source.1.id && item.lineId = source.2.id) refusal
  let value ← orRaise (decimal (some entry.quantity) 3 15) refusal
  raiseIf (source.2.unit = .count ∧ value % 1000 ≠ 0) refusal
  raiseIf (trim entry.reason = "")
    ("Enter the decision reason for " ++ source.2.description ++ ".")
  return {
    planId := entry.planId
    lineId := entry.lineId
    quantity := entry.quantity
    reason := trim entry.reason
    description := source.2.description
    unit := source.2.unit
    declaredQuantity := source.2.manifestQuantity }

/-- Whether a submitted report says what is submitted again. -/
def sameReport (previous : PreviewReport) (fingerprint reason : String)
    (lines : List PreviewReportLine) : Bool :=
  reportStatus previous = .submitted && previous.sourceFingerprint = fingerprint &&
    previous.reason = reason && previous.lines = lines

section Calls

variable (rt : Runtime) (moment : Moment)

/-- The version a submission adds after the reports of the record. -/
def newReport (callId : String) (saved : CloseoutRecord) (sheets : List MeasurementPlan)
    (reason : String) (lines : List PreviewReportLine) (actor : Actor) : PreviewReport where
  id := moment.uuid 0
  callId := callId
  revision := (saved.reports.getLast?.map PreviewReport.revision).getD 0 + 1
  status := some .submitted
  sourceFingerprint := voyageInputFingerprint rt sheets
  preparedAt := some (moment.now 0)
  preparedBy := some actor
  approvedAt := none
  approvedBy := none
  returnedAt := none
  returnedBy := none
  returnComment := none
  reason := reason
  lines := lines
  sourcePlans := sheets

/-- A record with a report pushed, and the event of it. -/
def pushReport (callId : String) (saved : CloseoutRecord) (report : PreviewReport)
    (actor : Actor) : CloseoutRecord :=
  { saved with
    reports := saved.reports ++ [report]
    events := saved.events ++ [{
      id := moment.uuid 1
      callId := callId
      at_ := moment.now 0
      actor := actor
      action := .reportSubmitted
      reference := reportReference report.revision }] }

/-- `submitReport`, of the tab of the voyage `callId`. -/
def submitReport (callId : String) (plans : List MeasurementPlan) (input : ReportInput)
    (actor : Actor) : Change PreviewReport := fun saved => do
  let sheets := activePlans rt plans
  raiseSome (reconciliationIssues rt sheets ++
    if sheets.any (·.callId ≠ callId) then ["The report contains another voyage."] else []).head?
  raiseIf (trim input.reason = "") "Enter a review note before submitting the report."
  let sourceLines := sheets.flatMap fun plan => plan.lines.map (plan, ·)
  raiseIf (input.lines.length ≠ sourceLines.length ∨
      (input.lines.map fun line => lineKey line.planId line.lineId).dedup.length ≠
        sourceLines.length)
    "Provide a final reading for every cargo item."
  let lines ← sourceLines.mapM (submittedLine input)
  let report := newReport rt moment callId saved sheets (trim input.reason) lines actor
  match saved.reports.getLast?.filter fun previous =>
      sameReport previous report.sourceFingerprint report.reason lines with
  | some previous => return (previous, saved)
  | none => return (report, pushReport moment callId saved report actor)

/-- The last report, where it is the one asked for and waits for review. -/
def submittedReport (saved : CloseoutRecord) (reportId : String) : Option PreviewReport :=
  saved.reports.getLast?.filter fun report =>
    report.id = reportId && reportStatus report = .submitted

/-- A record with its last report settled, and the event of it. -/
def settleReport (saved : CloseoutRecord) (callId : String) (report : PreviewReport)
    (actor : Actor) (action : PreviewEventAction) : CloseoutRecord :=
  { saved with
    reports := saved.reports.dropLast ++ [report]
    events := saved.events ++ [{
      id := moment.uuid 1
      callId := callId
      at_ := moment.now 0
      actor := actor
      action := action
      reference := reportReference report.revision }] }

/-- A report approved by `actor` now. -/
def approvedBy (report : PreviewReport) (actor : Actor) : PreviewReport :=
  { report with
    status := some .approved
    approvedAt := some (moment.now 0)
    approvedBy := some actor }

/-- A report returned by `actor` now. -/
def returnedBy (report : PreviewReport) (actor : Actor) (comment : String) :
    PreviewReport :=
  { report with
    status := some .returned
    returnedAt := some (moment.now 0)
    returnedBy := some actor
    returnComment := some (trim comment) }

def approveReport (callId : String) (plans : List MeasurementPlan) (reportId : String)
    (actor : Actor) (invoice : Option PreviewInvoiceInput) : Change Approved := fun saved => do
  let report ← orRaise (submittedReport saved reportId)
    "Only the latest submitted version can be approved."
  raiseIf (matchesInputs rt report plans = false)
    "The readings changed after this version was submitted. Return it so the preparer can review the latest figures."
  raiseIf (report.preparedBy.map Actor.id = some actor.id)
    "A second reviewer must approve. You prepared this version."
  let report := approvedBy moment report actor
  let saved := settleReport moment saved callId report actor .reportApproved
  match invoice.map fun input => draftInvoice rt moment saved report input actor with
  | none => return ({ report := report, invoice := none, invoiceIssue := none }, saved)
  | some (.error issue) =>
      return ({ report := report, invoice := none, invoiceIssue := some issue }, saved)
  | some (.ok (drafted, saved)) =>
      return ({ report := report, invoice := some drafted, invoiceIssue := none }, saved)

def returnReport (callId reportId : String) (actor : Actor) (comment : String) :
    Change PreviewReport := fun saved => do
  let report ← orRaise (submittedReport saved reportId)
    "Only the latest submitted version can be returned."
  raiseIf (trim comment = "") "Explain what the preparer should change."
  let report := returnedBy moment report actor comment
  return (report, settleReport moment saved callId report actor .reportReturned)

def createInvoice (plans : List MeasurementPlan) (reportId : String)
    (input : PreviewInvoiceInput) (actor : Actor) : Change PreviewInvoice := fun saved => do
  let report ← orRaise ((currentReport rt plans saved).filter fun report => report.id = reportId)
    "Approve a current reconciliation report before creating an invoice preview."
  draftInvoice rt moment saved report input actor

/-- The change a call makes. -/
def changeOf (callId : String) : Call → Change Answer
  | .saveDeclaration input actor => fun saved =>
      (saveDeclaration moment input actor saved).map (Prod.map .declaration id)
  | .submitReport plans input actor => fun saved =>
      (submitReport rt moment callId plans input actor saved).map (Prod.map .report id)
  | .approveReport plans reportId actor invoice => fun saved =>
      (approveReport rt moment callId plans reportId actor invoice saved).map
        (Prod.map .approved id)
  | .returnReport reportId actor comment => fun saved =>
      (returnReport moment callId reportId actor comment saved).map (Prod.map .report id)
  | .createInvoice plans reportId input actor => fun saved =>
      (createInvoice rt moment plans reportId input actor saved).map (Prod.map .invoice id)

end Calls

/-! ## Performing calls -/

/-- A call of a tab that shows the voyage `callId` of the organization `orgId`. -/
structure Request where
  orgId : Option String
  callId : String
  call : Call
  moment : Moment

/-- One call: the storage after it, and what it returns or why it failed. -/
def perform (rt : Runtime) (storage : LocalStorage) (r : Request) :
    LocalStorage × Except String Answer :=
  mutate rt r.orgId r.callId r.moment (changeOf rt r.moment r.callId r.call) storage

/-- The previews as a service: a call that fails is refused. -/
def handle (rt : Runtime) (storage : LocalStorage) (r : Request) :
    Except String (LocalStorage × Answer) :=
  match perform rt storage r with
  | (after, .ok answer) => .ok (after, answer)
  | (_, .error message) => .error message

/-! ## What is stored -/

/-- The records of a storage item. -/
def LocalStorage.saved (storage : LocalStorage) (key : String) : List CloseoutRecord :=
  match storage key with
  | some (.previews data) => data.records
  | _ => []

/-- The record of a voyage in a storage item. -/
def LocalStorage.record (storage : LocalStorage) (key callId : String) : CloseoutRecord :=
  recordOf callId (storage.saved key)

@[simp] theorem setItem_self (storage : LocalStorage) (key : String) (text : StoredText) :
    storage.setItem key text key = some text :=
  if_pos rfl

theorem setItem_of_ne {storage : LocalStorage} {key k : String} (h : k ≠ key)
    (text : StoredText) : storage.setItem key text k = storage k :=
  if_neg h

@[simp] theorem saved_setItem_self (storage : LocalStorage) (key : String)
    (data : StoredPreviews) : (storage.setItem key (.previews data)).saved key = data.records := by
  rw [LocalStorage.saved, setItem_self]

theorem saved_setItem_of_ne {storage : LocalStorage} {key k : String} (h : k ≠ key)
    (text : StoredText) : (storage.setItem key text).saved k = storage.saved k := by
  unfold LocalStorage.saved
  rw [setItem_of_ne h]

@[simp] theorem recordOf_callId (callId : String) (records : List CloseoutRecord) :
    (recordOf callId records).callId = callId := by
  unfold recordOf
  cases h : Table.get callId records with
  | none => rfl
  | some saved => exact (Table.mem_of_get h).2

/-- The record a call finds is a stored one or empty. -/
theorem recordOf_cases (callId : String) (records : List CloseoutRecord) :
    recordOf callId records ∈ records ∨ recordOf callId records =
      { callId := callId, reports := [], invoices := [], events := [], declaration := none } := by
  unfold recordOf
  cases h : Table.get callId records with
  | none => exact .inr rfl
  | some saved => exact .inl (Table.mem_of_get h).1

theorem validRecord_iff {record : CloseoutRecord} :
    validRecord record = true ↔ record.callId ≠ "" ∧
      (∀ report ∈ record.reports, validReport report record.callId = true) ∧
      (∀ invoice ∈ record.invoices, validInvoice record invoice = true) ∧
      (∀ event ∈ record.events, event.callId = record.callId) ∧
      validDeclaration record.declaration = true := by
  simp only [validRecord, Bool.and_eq_true, List.all_eq_true, decide_eq_true_eq, and_assoc]

theorem StoredPreviews.valid_iff {org : String} {data : StoredPreviews} :
    data.valid org = true ↔ data.version = 1 ∧ data.organizationId = org ∧
      (∀ record ∈ data.records, validRecord record = true) ∧ (Table.keys data.records).Nodup := by
  simp only [StoredPreviews.valid, Bool.and_eq_true, List.all_eq_true, decide_eq_true_eq,
    and_assoc]

@[simp] theorem parsePreviews_key (key org : String) (raw : Option StoredText) :
    (parsePreviews key org raw).key = some key := by
  unfold parsePreviews
  split
  · rfl
  · rfl
  · split <;> rfl
  · rfl

/-- An item that can be read is absent, empty or valid. -/
theorem parsePreviews_error_eq_none {storage : LocalStorage} {key org : String}
    (h : (parsePreviews key org (storage key)).error = none) :
    (parsePreviews key org (storage key)).records = storage.saved key ∧
      (storage.saved key = [] ∨
        ∃ data, storage key = some (.previews data) ∧ data.valid org = true) := by
  unfold LocalStorage.saved
  cases hraw : storage key with
  | none => exact ⟨rfl, .inl rfl⟩
  | some text =>
      rw [hraw] at h
      cases text with
      | previews data =>
          by_cases hvalid : data.valid org = true
          · refine ⟨?_, .inr ⟨data, rfl, hvalid⟩⟩
            simp [parsePreviews, hvalid]
          · simp [parsePreviews, hvalid] at h
      | other text =>
          by_cases hempty : text = ""
          · subst hempty
            exact ⟨rfl, .inl rfl⟩
          · simp [parsePreviews] at h

/-- What `readPreviews` has read where it reports no error. -/
theorem readPreviews_error_eq_none {rt : Runtime} {orgId : Option String} {readable : Bool}
    {storage : LocalStorage} {key : String}
    (hkey : (readPreviews rt orgId readable storage).key = some key)
    (h : (readPreviews rt orgId readable storage).error = none) :
    ∃ org, orgId = some org ∧ closeoutStorageKey rt orgId = some key ∧
      (readPreviews rt orgId readable storage).records = storage.saved key ∧
      (storage.saved key = [] ∨
        ∃ data, storage key = some (.previews data) ∧ data.valid org = true) := by
  unfold readPreviews at hkey h ⊢
  cases hk : closeoutStorageKey rt orgId with
  | none => simp [hk] at hkey
  | some k =>
      obtain ⟨org, rfl⟩ : ∃ org, orgId = some org := by
        cases orgId with
        | none => cases hk
        | some org => exact ⟨org, rfl⟩
      simp only [hk] at hkey h ⊢
      split at h
      · cases h
      · rename_i hreadable
        rw [if_neg hreadable, parsePreviews_key] at hkey
        rw [if_neg hreadable]
        cases hkey
        obtain ⟨hrecords, hvalid⟩ := parsePreviews_error_eq_none h
        exact ⟨org, rfl, rfl, hrecords, hvalid⟩

/-- A record that a call finds in an item it can read is valid or empty. -/
theorem validRecord_of_stored {storage : LocalStorage} {key callId org : String}
    (h : storage.saved key = [] ∨
      ∃ data, storage key = some (.previews data) ∧ data.valid org = true) :
    validRecord (storage.record key callId) = true ∨ storage.record key callId =
      { callId := callId, reports := [], invoices := [], events := [], declaration := none } := by
  refine (recordOf_cases callId (storage.saved key)).imp_left fun hstored => ?_
  obtain hnil | ⟨data, hdata, hvalid⟩ := h
  · rw [hnil] at hstored
    cases hstored
  · have hsaved : storage.saved key = data.records := by
      rw [LocalStorage.saved, hdata]
    rw [hsaved] at hstored
    rw [LocalStorage.record, hsaved]
    exact (StoredPreviews.valid_iff.mp hvalid).2.2.1 _ hstored

/-- What a successful call of `mutate` comes to: the item was absent, empty or valid, the
change was accepted, and the record moved to the end. -/
theorem mutate_eq_ok {rt : Runtime} {A : Type} {orgId : Option String} {callId : String}
    {moment : Moment} {change : Change A} {storage after : LocalStorage} {answer : A}
    (h : mutate rt orgId callId moment change storage = (after, .ok answer)) :
    ∃ org key updated, orgId = some org ∧ closeoutStorageKey rt orgId = some key ∧
      callId ≠ "" ∧
      (storage.saved key = [] ∨ ∃ data, storage key = some (.previews data) ∧
        data.valid org = true) ∧
      change (storage.record key callId) = .ok (answer, updated) ∧
      after = storage.setItem key (.previews {
        version := 1
        organizationId := org
        records := ((storage.saved key).filter fun item => item.callId ≠ callId) ++
          [updated] }) := by
  unfold mutate at h
  simp only at h
  split at h
  · cases h
  · cases h
  rename_i key hkey herror
  obtain ⟨org, horg, hstorage, hrecords, hvalid⟩ := readPreviews_error_eq_none hkey herror
  split at h
  · cases h
  rename_i hcall
  rw [hrecords] at h
  split at h
  · cases h
  rename_i result updated hchange
  split at h
  · cases h
  cases h
  subst horg
  exact ⟨org, key, updated, rfl, hstorage, hcall, hvalid, hchange, rfl⟩

theorem readPreviews_key {rt : Runtime} {orgId : Option String} {readable : Bool}
    {storage : LocalStorage} {key : String} (h : closeoutStorageKey rt orgId = some key) :
    (readPreviews rt orgId readable storage).key = some key := by
  rw [readPreviews, h]
  dsimp only
  split
  · rfl
  · unfold parsePreviews
    split
    · rfl
    · rfl
    · split <;> rfl
    · rfl

/-- A change that is accepted succeeds where the previews can be read and written. -/
theorem mutate_ok {rt : Runtime} {A : Type} {orgId : Option String} {callId : String}
    {moment : Moment} {change : Change A} {storage : LocalStorage} {answer : A}
    {updated : CloseoutRecord}
    (hreadable : (readPreviews rt orgId moment.readable storage).error = none)
    (hcall : callId ≠ "") (hwritable : moment.writeError = none)
    (hchange : change (recordOf callId (readPreviews rt orgId moment.readable storage).records) =
      .ok (answer, updated)) :
    ∃ after, mutate rt orgId callId moment change storage = (after, .ok answer) := by
  obtain ⟨key, hkey⟩ : ∃ key, (readPreviews rt orgId moment.readable storage).key = some key := by
    cases hkey : closeoutStorageKey rt orgId with
    | none =>
        rw [readPreviews, hkey] at hreadable
        cases hreadable
    | some key => exact ⟨key, readPreviews_key hkey⟩
  unfold mutate
  dsimp only
  rw [hkey, hreadable]
  dsimp only
  rw [if_neg hcall, hchange, hwritable]
  exact ⟨_, rfl⟩

/-- A call of `mutate` that fails writes nothing. -/
theorem mutate_error {rt : Runtime} {A : Type} {orgId : Option String} {callId : String}
    {moment : Moment} {change : Change A} {storage after : LocalStorage} {message : String}
    (h : mutate rt orgId callId moment change storage = (after, .error message)) :
    after = storage := by
  unfold mutate at h
  dsimp only at h
  split at h
  · cases h
    rfl
  · cases h
    rfl
  split at h
  · cases h
    rfl
  split at h
  · cases h
    rfl
  split at h
  · cases h
    rfl
  · cases h

/-! ## What a change does -/

section Changes

variable {rt : Runtime} {moment : Moment} {saved after : CloseoutRecord} {actor : Actor}

/-- An accepted draft: the input and its calculation are in order, and the invoice is the
latest one again or a new one at the end. -/
theorem draftInvoice_eq_ok {report : PreviewReport} {input : PreviewInvoiceInput}
    {invoice : PreviewInvoice}
    (h : draftInvoice rt moment saved report input actor = .ok (invoice, after)) :
    (input.originalPaidAmount = "" ∨ (decimal (some input.originalPaidAmount) 2 15).isSome) ∧
      input.currency ∈ currencies ∧
      (calculateVariation report.lines input.lines).issues = [] ∧
      (after = saved ∨ invoice = newInvoice rt moment saved report input actor ∧
        after = pushInvoice moment saved invoice actor) := by
  unfold draftInvoice at h
  obtain ⟨_, _, h⟩ := bind_eq_ok.mp h
  obtain ⟨_, hpaid, h⟩ := bind_eq_ok.mp h
  obtain ⟨_, hcurrency, h⟩ := bind_eq_ok.mp h
  obtain ⟨_, hissues, h⟩ := bind_eq_ok.mp h
  obtain ⟨_, _, h⟩ := bind_eq_ok.mp h
  obtain ⟨_, _, h⟩ := bind_eq_ok.mp h
  rw [raiseIf_eq_ok] at hpaid hcurrency
  rw [raiseSome_eq_ok, List.head?_eq_none_iff] at hissues
  refine ⟨?_, not_not.mp hcurrency, hissues, ?_⟩
  · by_cases hblank : input.originalPaidAmount = ""
    · exact .inl hblank
    · exact .inr (Option.isSome_iff_ne_none.mpr fun hnone => hpaid ⟨hblank, hnone⟩)
  · split at h
    · cases h
      exact .inl rfl
    · cases h
      exact .inr ⟨rfl, rfl⟩

theorem saveDeclaration_eq_ok {input : PaidDeclarationInput} {declaration : PaidDeclaration}
    (h : saveDeclaration moment input actor saved = .ok (declaration, after)) :
    after = { saved with declaration := some declaration } ∧
      validDeclaration (some declaration) = true := by
  unfold saveDeclaration at h
  obtain ⟨_, hcurrency, h⟩ := bind_eq_ok.mp h
  obtain ⟨_, hamount, h⟩ := bind_eq_ok.mp h
  obtain ⟨_, _, h⟩ := bind_eq_ok.mp h
  rw [raiseIf_eq_ok] at hcurrency hamount
  cases h
  refine ⟨rfl, ?_⟩
  simp only [validDeclaration, Option.all_some, Bool.and_eq_true, Bool.or_eq_true,
    decide_eq_true_eq]
  refine ⟨not_not.mp hcurrency, ?_⟩
  by_cases hblank : trim input.amountPaid = ""
  · exact .inl hblank
  · exact .inr (by simpa using fun hinvalid => hamount ⟨hblank, hinvalid⟩)

/-- An accepted submission: the sheets are complete and of the voyage, and the report is the
one that already waits for review or a new one at the end. -/
theorem submitReport_eq_ok {callId : String} {plans : List MeasurementPlan}
    {input : ReportInput} {report : PreviewReport}
    (h : submitReport rt moment callId plans input actor saved = .ok (report, after)) :
    reconciliationIssues rt (activePlans rt plans) = [] ∧
      (∀ plan ∈ activePlans rt plans, plan.callId = callId) ∧
      ∃ lines, ((activePlans rt plans).flatMap fun plan => plan.lines.map (plan, ·)).mapM
          (submittedLine input) = .ok lines ∧
        (after = saved ∨ report = newReport rt moment callId saved (activePlans rt plans)
            (trim input.reason) lines actor ∧
          after = pushReport moment callId saved report actor) := by
  unfold submitReport at h
  obtain ⟨_, hissues, h⟩ := bind_eq_ok.mp h
  obtain ⟨_, _, h⟩ := bind_eq_ok.mp h
  obtain ⟨_, _, h⟩ := bind_eq_ok.mp h
  obtain ⟨lines, hlines, h⟩ := bind_eq_ok.mp h
  rw [raiseSome_eq_ok, List.head?_eq_none_iff, List.append_eq_nil_iff] at hissues
  refine ⟨hissues.1, ?_, lines, hlines, ?_⟩
  · simpa using hissues.2
  · dsimp only at h
    split at h
    · cases h
      exact .inl rfl
    · cases h
      exact .inr ⟨rfl, rfl⟩

theorem submittedReport_eq_some {reportId : String} {report : PreviewReport} :
    submittedReport saved reportId = some report ↔
      saved.reports.getLast? = some report ∧ report.id = reportId ∧
        report.status = some .submitted := by
  have hstatus : reportStatus report = .submitted ↔ report.status = some .submitted := by
    unfold reportStatus
    cases report.status <;> simp
  rw [submittedReport, Option.filter_eq_some_iff, Bool.and_eq_true, decide_eq_true_eq,
    decide_eq_true_eq, hstatus]

/-- An accepted approval: the last report waited for review, matched the inputs, and was
prepared by another; a draft that cannot be made leaves the approval. -/
theorem approveReport_eq_ok {callId reportId : String} {plans : List MeasurementPlan}
    {invoice : Option PreviewInvoiceInput} {result : Approved}
    (h : approveReport rt moment callId plans reportId actor invoice saved =
      .ok (result, after)) :
    ∃ report, submittedReport saved reportId = some report ∧
      matchesInputs rt report plans = true ∧
      report.preparedBy.map Actor.id ≠ some actor.id ∧
      (after = settleReport moment saved callId (approvedBy moment report actor) actor
          .reportApproved ∨
        ∃ input drafted, draftInvoice rt moment (settleReport moment saved callId
          (approvedBy moment report actor) actor .reportApproved)
          (approvedBy moment report actor) input actor = .ok (drafted, after)) := by
  unfold approveReport at h
  obtain ⟨report, hreport, h⟩ := bind_eq_ok.mp h
  obtain ⟨_, hmatches, h⟩ := bind_eq_ok.mp h
  obtain ⟨_, hsecond, h⟩ := bind_eq_ok.mp h
  rw [orRaise_eq_ok] at hreport
  rw [raiseIf_eq_ok] at hmatches hsecond
  refine ⟨report, hreport, by simpa using hmatches, hsecond, ?_⟩
  cases invoice with
  | none =>
      cases h
      exact .inl rfl
  | some input =>
      simp only [Option.map_some] at h
      split at h
      · rename_i hnone
        cases hnone
      · cases h
        exact .inl rfl
      · rename_i drafted draftedAfter hdraft
        cases h
        exact .inr ⟨input, drafted, Option.some.inj hdraft⟩

theorem returnReport_eq_ok {callId reportId comment : String} {result : PreviewReport}
    (h : returnReport moment callId reportId actor comment saved = .ok (result, after)) :
    ∃ report, submittedReport saved reportId = some report ∧
      after = settleReport moment saved callId (returnedBy moment report actor comment) actor
        .reportReturned := by
  unfold returnReport at h
  obtain ⟨report, hreport, h⟩ := bind_eq_ok.mp h
  obtain ⟨_, _, h⟩ := bind_eq_ok.mp h
  rw [orRaise_eq_ok] at hreport
  cases h
  exact ⟨report, hreport, rfl⟩

theorem createInvoice_eq_ok {reportId : String} {plans : List MeasurementPlan}
    {input : PreviewInvoiceInput} {invoice : PreviewInvoice}
    (h : createInvoice rt moment plans reportId input actor saved = .ok (invoice, after)) :
    ∃ report, currentReport rt plans saved = some report ∧ report.id = reportId ∧
      draftInvoice rt moment saved report input actor = .ok (invoice, after) := by
  unfold createInvoice at h
  obtain ⟨report, hreport, h⟩ := bind_eq_ok.mp h
  rw [orRaise_eq_ok, Option.filter_eq_some_iff, decide_eq_true_eq] at hreport
  exact ⟨report, hreport.1, hreport.2, h⟩

end Changes

/-! ## A sample voyage -/

namespace Sample

/-- A runtime that orders texts by their characters and prints of the inputs the keys. -/
def runtime : Runtime where
  localeLe a b := decide (a ≤ b)
  stringify entries := ",".intercalate (entries.map fun e => e.id ++ "@" ++ toString e.version)
  encodeURIComponent text := text
  callSuffix text :=
    String.ofList ((text.toList.drop (text.length - 8)).map Char.toUpper)

def moment (n : ℕ) : Moment where
  now k := "2026-01-01T00:00:0" ++ toString k
  uuid k := "uuid-" ++ toString n ++ "-" ++ toString k
  readable := true
  writeError := none

def preparer : Actor := ⟨"user-1", "Ama"⟩

def reviewer : Actor := ⟨"user-2", "Bello"⟩

def cargoLine : CargoLine where
  id := "line-1"
  description := "Steel coils"
  category := "general"
  direction := "import"
  containerSize := ""
  loadStatus := ""
  unit := .tonnes
  basis := "manifest"
  manifestQuantity := some "100.000"
  baselineReference := "B/L 1"

def plan : MeasurementPlan where
  id := "plan-1"
  callId := "call-1"
  title := "Discharge"
  scope := "Hold 1"
  vesselName := "Vessel"
  callReference := "VC-1"
  version := 3
  status := .inProgress
  participants := [⟨"party-1", none, "Agency", "surveyor", "", true, true⟩]
  lines := [cargoLine]
  submissions := [{
    id := "return-1"
    participantId := "party-1"
    revision := 1
    observedAt := "2026-01-01"
    sourceReference := "log"
    notes := ""
    reason := ""
    recordedBy := some preparer
    source := .staff
    representative := ""
    recordedAt := "2026-01-01"
    lines := [⟨"line-1", .reported, some "112.500", ""⟩]
    evidenceIds := [] }]
  reconciliations := []

def reportInput : ReportInput := ⟨"checked", [⟨"plan-1", "line-1", "112.5", "agreed reading"⟩]⟩

def invoiceInput : PreviewInvoiceInput where
  payer := "Owner"
  currency := "USD"
  tariffReference := "T-1"
  originalInvoiceReference := "INV-1"
  paymentStatus := .paid
  originalPaidAmount := ""
  previousVariationReference := ""
  lines := [⟨"plan-1", "line-1", "3.2500", "0.00"⟩]

def request (n : ℕ) (call : Call) : Request := ⟨some "org-1", "call-1", call, moment n⟩

/-- The preparer submits, fails to approve, and the reviewer approves. -/
def calls : List Request := [
  request 0 (.submitReport [plan] reportInput preparer),
  request 1 (.approveReport [plan] "uuid-0-0" preparer none),
  request 2 (.approveReport [plan] "uuid-0-0" reviewer (some invoiceInput))]

def start : LocalStorage := fun _ => none

/-- The storage with the report submitted. -/
def submitted : LocalStorage :=
  (perform runtime start (request 0 (.submitReport [plan] reportInput preparer))).1

/-- The reviewer approves and has the invoice drafted. -/
def approval : Request :=
  request 2 (.approveReport [plan] "uuid-0-0" reviewer (some invoiceInput))

def key : String := "vessel-caller:closeout-preview:v1:org-1"

end Sample

end VesselCaller.Closeout
