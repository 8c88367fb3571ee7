import VesselCaller.Tenant

/-!
# The invoice endpoints

`PaymentCreateView`, `PaymentReverseView`, `InvoiceTransitionView` and the
configuration of the workflow steps.  A payment is recorded against the balance
left by the standing payments; recording and reversing end in
`reconcilePaymentStatus`, which moves the invoice in or out of the paid step.

## Main definitions

* `createPayment`, `reversePayment`, `transitionView` — money and status;
* `createStepView`, `patchStep`, `reorderSteps` — the configuration;
* `Op` — the requests, with their permissions and their handler.
-/

namespace VesselCaller.Billing

open Lib Accounts

/-- Write an invoice back. -/
def putInvoice (t : Tenant) (invoice : Invoice) : Tenant :=
  { t with invoices := Table.put invoice t.invoices }

def getInvoice (t : Tenant) (invoiceId : Id) : Result Invoice :=
  orRaise (Table.get invoiceId t.invoices) (.notFound "Invoice not found")

/-! ## Payments -/

/-- A `PaymentCreateSerializer` body. -/
structure PaymentInput where
  amount : Option (Decimal 2) := none
  paidOn : Date
  method : String
  reference : String
  deriving DecidableEq, Repr

def PaymentInput.validate (d : PaymentInput) : Result Unit := do
  raiseIf (d.amount.any (fun a => decide (a < 1) || decide (10 ^ 18 ≤ a)) = true)
    (.validation "amount" "Invalid value.")
  raiseIf (charField 100 false d.method = false) (.validation "method" "Invalid value.")
  raiseIf (charField 255 false d.reference = false) (.validation "reference" "Invalid value.")

/-- The payment an idempotency key already names on the invoice. -/
def Invoice.replayed (i : Invoice) (idempotencyKey : String) : Option Payment :=
  if idempotencyKey = "" then none
  else i.payments.find? fun p => p.idempotencyKey = idempotencyKey

/-- `max(invoice.dues - current_paid, 0)`. -/
def Invoice.balance (i : Invoice) : Decimal 2 := max (i.dues - i.currentPaid) 0

/-- The part of `PaymentCreateView.post` that writes. -/
def recordPayment (t : Tenant) (ctx : Ctx) (actor : Id) (invoice : Invoice)
    (data : PaymentInput) (idempotencyKey : String) :
    Result (Tenant × Payment × Invoice) := do
  raiseIf (invoice.status = .paid ∨ invoice.balance = 0)
    (.conflict "This invoice is already fully paid")
  let amount := data.amount.getD invoice.balance
  raiseIf (amount > invoice.balance)
    (.validation "amount" "Payment exceeds the outstanding invoice amount")
  raiseIf (ctx.uuid 0 ∈ t.invoices.flatMap fun i => Table.keys i.payments)
    (.integrity "billing_payment_pkey")
  raiseIf (data.reference ∈ invoice.payments.map Payment.reference)
    (.integrity "billing_unique_payment_reference")
  let payment : Payment := {
    id := ctx.uuid 0
    amount := amount
    paidOn := data.paidOn
    method := data.method
    reference := data.reference
    recordedBy := actor
    recordedAt := ctx.now
    reversedAt := none
    reversedBy := none
    reversalReason := ""
    idempotencyKey := idempotencyKey }
  let invoice := { invoice with payments := invoice.payments ++ [payment] }
  let (invoice, steps) ← reconcilePaymentStatus ctx t.steps invoice .payment (some actor)
  return ((putInvoice { t with steps := steps } invoice).bumpRevision, payment, invoice)

/-- `PaymentCreateView.post`.  The header is cut to 128 characters. -/
def createPayment (t : Tenant) (ctx : Ctx) (actor : Id) (invoiceId : Id) (data : PaymentInput)
    (header : String) : Result (Tenant × Payment × Invoice) := do
  data.validate
  let invoice ← getInvoice t invoiceId
  raiseIf (invoice.status = .void) (.conflict "A void invoice cannot be paid")
  let idempotencyKey := String.ofList (header.toList.take 128)
  match invoice.replayed idempotencyKey with
  | some existing => return (t, existing, invoice)
  | none => recordPayment t ctx actor invoice data idempotencyKey

/-- The invoice that holds a payment, and the payment. -/
def findPayment (invoices : List Invoice) (paymentId : Id) : Option (Invoice × Payment) :=
  invoices.findSome? fun i => (Table.get paymentId i.payments).map fun p => (i, p)

/-- `PaymentReverseView.post`: reversing a reversed payment changes nothing. -/
def reversePayment (t : Tenant) (ctx : Ctx) (actor : Id) (paymentId : Id) (reason : String) :
    Result (Tenant × Payment × Invoice) := do
  raiseIf (reason.length < 3) (.validation "reason" "Invalid value.")
  let (invoice, payment) ← orRaise (findPayment t.invoices paymentId)
    (.notFound "Payment not found")
  if payment.reversedAt.isSome then return (t, payment, invoice)
  else do
    let payment := { payment with
      reversedAt := some ctx.now
      reversedBy := some actor
      reversalReason := reason }
    let invoice := { invoice with payments := Table.put payment invoice.payments }
    let (invoice, steps) ← reconcilePaymentStatus ctx t.steps invoice .reversal (some actor)
    return ((putInvoice { t with steps := steps } invoice).bumpRevision, payment, invoice)

/-! ## Manual transitions -/

/-- `InvoiceTransitionView.patch`. -/
def transitionView (t : Tenant) (ctx : Ctx) (actor : Id) (invoiceId statusId : Id)
    (note : String) : Result (Tenant × Invoice) := do
  raiseIf (charField 500 true note = false) (.validation "note" "Invalid value.")
  let invoice ← getInvoice t invoiceId
  raiseIf (invoice.status = .void) (.conflict "A void invoice cannot be transitioned")
  raiseIf (invoice.status = .paid ∨
      (invoice.currentStatus.bind (Table.get · t.steps)).any InvoiceStatusStep.isPaid = true)
    (.conflict "Reverse the payment before changing a paid invoice status")
  let step ← orRaise ((Table.get statusId t.steps).filter InvoiceStatusStep.active)
    (.validation "statusId" "Choose an active invoice status")
  raiseIf (step.isPaid = true)
    (.validation "statusId" "Paid is set only by payment reconciliation")
  let (invoice, recorded) ←
    transitionInvoice ctx t.steps invoice (some step) .manual (some actor) note
  return (if recorded then (putInvoice t invoice).bumpRevision else t, invoice)

/-! ## Workflow steps -/

/-- `[role for role, _ in User.Role.choices if role in roles]`. -/
def normalizeRoles (roles : List Role) : List Role :=
  [Role.admin, .operations, .finance, .viewer].filter (· ∈ roles)

/-- `_validate_invoice_status_notification_policy`. -/
def notificationPolicy (roles : List Role) (notifyOnEntry : Bool) : Result (List Role) := do
  raiseIf (¬roles.Nodup)
    (.validation "notificationRoles" "Choose each notification role only once")
  raiseIf (notifyOnEntry = true ∧ roles = [])
    (.validation "notificationRoles" "Choose at least one role when notifications are enabled")
  return normalizeRoles roles

/-- An `InvoiceStatusStepSerializer` body.  `code` is the code supplied or, where
none is, the slug of the label. -/
structure StepInput where
  code : String
  label : String
  active : Bool := true
  notifyOnEntry : Bool := false
  notificationRoles : List Role := []
  deriving DecidableEq, Repr

/-- `InvoiceStatusStepsView.post`. -/
def createStepView (t : Tenant) (ctx : Ctx) (data : StepInput) :
    Result (Tenant × InvoiceStatusStep) := do
  raiseIf (charField 80 false data.label = false) (.validation "label" "Invalid value.")
  let roles ← notificationPolicy data.notificationRoles data.notifyOnEntry
  raiseIf (data.code = "" ∨ data.code = "paid" ∨ data.code = "void")
    (.validation "code" "Paid and Void are protected system statuses")
  let steps ← ensureDefaultSteps ctx t.steps
  raiseIf (data.code ∈ steps.map InvoiceStatusStep.code)
    (.validation "code" "This status code already exists")
  let position := ((steps.map InvoiceStatusStep.position).max?).getD 0 + 10
  raiseIf (50 < data.code.length ∨ 32767 < position) (.server "value out of range")
  let step : InvoiceStatusStep := {
    id := ctx.uuid 0
    code := data.code
    label := data.label
    position := position
    active := data.active
    notifyOnEntry := data.notifyOnEntry
    notificationRoles := roles
    isPaid := false
    isTerminal := false
    isProtected := false }
  let steps ← createStep steps step
  return ({ t with steps := steps }.bumpRevision, step)

/-- An `InvoiceStatusStepUpdateSerializer` body. -/
structure StepPatch where
  label : Option String := none
  active : Option Bool := none
  notifyOnEntry : Option Bool := none
  notificationRoles : Option (List Role) := none
  deriving DecidableEq, Repr

/-- The step with the patch applied: the serializer always hands on the
notification roles, normalized. -/
def InvoiceStatusStep.patched (s : InvoiceStatusStep) (data : StepPatch) (roles : List Role) :
    InvoiceStatusStep :=
  { s with
    label := data.label.getD s.label
    active := data.active.getD s.active
    notifyOnEntry := data.notifyOnEntry.getD s.notifyOnEntry
    notificationRoles := roles }

/-- `InvoiceStatusStepDetailView.patch`: a patch that changes no field is not a
change. -/
def patchStep (t : Tenant) (stepId : Id) (data : StepPatch) :
    Result (Tenant × InvoiceStatusStep) := do
  let step ← orRaise (Table.get stepId t.steps) (.notFound "Invoice status step not found")
  raiseIf (data.label.all (charField 80 false) = false) (.validation "label" "Invalid value.")
  let roles ← notificationPolicy (data.notificationRoles.getD step.notificationRoles)
    (data.notifyOnEntry.getD step.notifyOnEntry)
  raiseIf (step.isProtected = true ∧ (data.label.isSome = true ∨ data.active.isSome = true))
    (.validation "detail" "Paid is a protected system status")
  raiseIf (step.open = true ∧ data.active = some false ∧
      t.steps.any (fun s => s.id ≠ step.id && s.open) = false)
    (.validation "active" "At least one active non-paid invoice status is required")
  let patched := step.patched data roles
  if patched = step then return (t, step)
  else return ({ t with steps := Table.put patched t.steps }.bumpRevision, patched)

/-- The checks of `InvoiceStatusStepReorderView.post`. -/
def checkReorder (steps : List InvoiceStatusStep) (ids : List Id) : Result Unit := do
  raiseIf (ids = []) (.validation "ids" "Invalid value.")
  raiseIf (¬ids.Nodup ∨ ¬(∀ id, id ∈ ids → id ∈ Table.keys steps) ∨
      ¬(∀ id, id ∈ Table.keys steps → id ∈ ids))
    (.validation "ids" "Submit every organization status exactly once")
  let active := (ids.filterMap (Table.get · steps)).filter InvoiceStatusStep.active
  raiseIf (active.getLast?.all (fun s => !s.isPaid) = true ∨
      active.dropLast.any InvoiceStatusStep.isPaid = true)
    (.validation "ids" "Paid is terminal and must remain last among active steps")

/-- `step.position = index * 10` for the steps in the requested order. -/
def renumber (steps : List InvoiceStatusStep) (ids : List Id) : Result (List InvoiceStatusStep) :=
  writePositions steps (ids.zipIdx.map fun e => (e.1, (e.2 + 1) * 10))

/-- `InvoiceStatusStepReorderView.post`. -/
def reorderSteps (t : Tenant) (ctx : Ctx) (ids : List Id) :
    Result (Tenant × List InvoiceStatusStep) := do
  checkReorder t.steps ids
  let steps ← shiftPositions ctx t.steps
  let steps ← renumber steps ids
  return ({ t with steps := steps }.bumpRevision, ids.filterMap (Table.get · steps))

/-! ## Requests -/

inductive Op where
  | createPayment (invoice : Id) (data : PaymentInput) (header : String)
  | reversePayment (payment : Id) (reason : String)
  | transition (invoice status : Id) (note : String)
  | createStep (data : StepInput)
  | patchStep (step : Id) (data : StepPatch)
  | reorderSteps (ids : List Id)

def Op.permission : Op → Permission
  | .createPayment .. | .reversePayment .. => .invoicesPay
  | .transition .. => .invoicesManage
  | .createStep .. | .patchStep .. | .reorderSteps .. => .organizationManage

inductive Response where
  | payment (data : Payment) (invoice : InvoiceData) (rev : ℕ)
  | invoice (data : InvoiceData) (rev : ℕ)
  | step (data : WorkflowStepData) (rev : ℕ)
  | steps (data : List WorkflowStepData) (rev : ℕ)

/-- The response of a payment mutation. -/
def paymentResponse (result : Tenant × Payment × Invoice) : Tenant × Response :=
  (result.1, .payment result.2.1 (result.1.invoiceData result.2.2) result.1.revision)

/-- The handler of an authorized request. -/
def Op.handle (t : Tenant) (ctx : Ctx) (actor : Id) : Op → Result (Tenant × Response)
  | .createPayment invoiceId data header => do
      let result ← Billing.createPayment t ctx actor invoiceId data header
      return paymentResponse result
  | .reversePayment paymentId reason => do
      let result ← Billing.reversePayment t ctx actor paymentId reason
      return paymentResponse result
  | .transition invoiceId statusId note => do
      let (t, invoice) ← transitionView t ctx actor invoiceId statusId note
      return (t, .invoice (t.invoiceData invoice) t.revision)
  | .createStep data => do
      let (t, step) ← createStepView t ctx data
      return (t, .step (invoiceStatusStepData step) t.revision)
  | .patchStep stepId data => do
      let (t, step) ← Billing.patchStep t stepId data
      return (t, .step (invoiceStatusStepData step) t.revision)
  | .reorderSteps ids => do
      let (t, steps) ← Billing.reorderSteps t ctx ids
      return (t, .steps (steps.map invoiceStatusStepData) t.revision)

end VesselCaller.Billing
