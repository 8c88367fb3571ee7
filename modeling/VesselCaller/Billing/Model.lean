import VesselCaller.Accounts.Model
import VesselCaller.Lib.UniqueColumn

/-!
# Billing: workflow steps, invoices and payments

The rows of `billing.models`.  An invoice carries its payments and its status
events, both in recorded order; `currentStatus` is the key of the workflow step
it stands in, and the legacy `status` is stored beside it.

## Main definitions

* `InvoiceStatusStep` — a step of the workflow;
* `Invoice`, with its `Payment`s, `LineItem`s and `InvoiceStatusEvent`s;
* `Invoice.currentPaid`, `invoiceData` — what is paid, and what is shown.
-/

namespace VesselCaller.Billing

open Lib Accounts

structure InvoiceStatusStep where
  id : Id
  code : String
  label : String
  position : ℕ
  active : Bool
  notifyOnEntry : Bool
  notificationRoles : List Role
  isPaid : Bool
  isTerminal : Bool
  isProtected : Bool
  deriving DecidableEq, Repr

instance : Keyed InvoiceStatusStep Id := ⟨InvoiceStatusStep.id⟩

/-- The `position` column. -/
def positionColumn : Column InvoiceStatusStep Id where
  get := InvoiceStatusStep.position
  set n s := { s with position := n }
  get_set _ _ := rfl
  key_set _ _ := rfl

inductive InvoiceStatus where
  | unpaid
  | paid
  | void
  deriving DecidableEq, Repr

inductive Purpose where
  | harbourDues
  | disparity
  deriving DecidableEq, Repr

inductive InvoiceCargo where
  | liquid
  | dry
  | disparity
  deriving DecidableEq, Repr

inductive EventSource where
  | migration
  | created
  | manual
  | payment
  | reversal
  deriving DecidableEq, Repr

structure InvoiceStatusEvent where
  id : Id
  fromStep : Option Id
  toStep : Option Id
  fromCode : String
  fromLabel : String
  toCode : String
  toLabel : String
  source : EventSource
  note : String
  actor : Option Id
  createdAt : Instant
  deriving DecidableEq, Repr

structure Payment where
  id : Id
  amount : Decimal 2
  paidOn : Date
  method : String
  reference : String
  recordedBy : Id
  recordedAt : Instant
  reversedAt : Option Instant
  reversedBy : Option Id
  reversalReason : String
  idempotencyKey : String
  deriving DecidableEq, Repr

instance : Keyed Payment Id := ⟨Payment.id⟩

/-- One entry of `Invoice.line_items`: the output of `assessment_line_data`.  The
decimals are stored as the exact text `format(value, "f")`, which `Decimal` reads
back unchanged. -/
structure LineItem where
  lineId : Id
  description : String
  unit : CargoUnit
  toleranceMode : ToleranceMode
  category : String
  direction : String
  containerSize : String
  loadStatus : String
  basis : String
  baselineQuantity : Decimal 3
  finalQuantity : Decimal 3
  variance : Decimal 3
  rate : Decimal 4
  tolerance : Decimal 3
  chargeableQuantity : Decimal 3
  entitlement : Decimal 2
  openingBilledAmount : Decimal 2
  priorInvoicedAmount : Decimal 2
  amount : Decimal 2
  deriving DecidableEq, Repr

structure Invoice where
  id : Id
  vesselCallId : Id
  inspectionId : Option Id
  purpose : Purpose
  currency : String
  payer : String
  reconciliationId : Option Id
  assessmentId : Option Id
  lineItems : List LineItem
  invoiceNo : String
  cargoType : InvoiceCargo
  issuedOn : Date
  dueOn : Date
  status : InvoiceStatus
  currentStatus : Option Id
  dues : Decimal 2
  rate : Decimal 4
  commissionUsd : Decimal 2
  commissionNgn : Decimal 2
  exchangeRate : Decimal 4
  payments : List Payment
  events : List InvoiceStatusEvent
  deriving DecidableEq, Repr

instance : Keyed Invoice Id := ⟨Invoice.id⟩

inductive SequenceKind where
  | invoice
  | inspection
  deriving DecidableEq, Repr

structure NumberSequence where
  kind : SequenceKind
  year : ℕ
  value : ℕ
  deriving DecidableEq, Repr

/-- A payment that has not been reversed. -/
def Payment.standing (p : Payment) : Bool := p.reversedAt.isNone

/-- `payments.filter(reversed_at__isnull=True).aggregate(Sum("amount")) or 0`. -/
def Invoice.currentPaid (i : Invoice) : Decimal 2 :=
  ((i.payments.filter Payment.standing).map Payment.amount).sum

/-! ## Payloads -/

/-- `workflow_step_data`. -/
structure WorkflowStepData where
  id : Option Id
  code : String
  label : String
  position : Option ℕ
  active : Bool
  isPaid : Bool
  isTerminal : Bool
  isProtected : Bool
  notifyOnEntry : Bool
  notificationRoles : List Role
  deriving DecidableEq, Repr

instance : Keyed WorkflowStepData (Option Id) := ⟨WorkflowStepData.id⟩

def workflowStepData (step : Option InvoiceStatusStep) (legacyStatus : InvoiceStatus) :
    WorkflowStepData :=
  match step with
  | none =>
      { id := none
        code := if legacyStatus = .void then "void" else ""
        label := if legacyStatus = .void then "Void" else ""
        position := none
        active := false
        isPaid := false
        isTerminal := legacyStatus = .void
        isProtected := legacyStatus = .void
        notifyOnEntry := false
        notificationRoles := [] }
  | some step =>
      { id := some step.id
        code := step.code
        label := step.label
        position := some step.position
        active := step.active
        isPaid := step.isPaid
        isTerminal := step.isTerminal
        isProtected := step.isProtected
        notifyOnEntry := step.notifyOnEntry
        notificationRoles := step.notificationRoles }

/-- `invoice_status_step_data`. -/
def invoiceStatusStepData (step : InvoiceStatusStep) : WorkflowStepData :=
  workflowStepData (some step) .unpaid

/-- The money an invoice reports as paid.  A paid invoice without a payment ledger
(an imported one) reports its dues. -/
def Invoice.paidAmount (i : Invoice) : Decimal 2 :=
  let payments := i.payments.filter Payment.standing
  if payments.isEmpty && i.status = .paid then i.dues else (payments.map Payment.amount).sum

/-- The money an invoice reports as outstanding. -/
def Invoice.outstandingAmount (i : Invoice) : Decimal 2 :=
  if i.status = .void then 0 else max (i.dues - i.paidAmount) 0

/-- `invoice_data`: the row with its payment summary, its workflow step and its
history.  `payment` is the latest standing payment. -/
structure InvoiceData where
  id : Id
  invoiceNo : String
  callId : Id
  inspectionId : Option Id
  purpose : Purpose
  currency : String
  payer : String
  reconciliationId : Option Id
  assessmentId : Option Id
  lineItems : List LineItem
  paidAmount : Decimal 2
  outstandingAmount : Decimal 2
  cargoType : InvoiceCargo
  issued : Date
  due : Date
  status : InvoiceStatus
  workflowStatus : WorkflowStepData
  statusHistory : List (InvoiceStatusEvent × Option String)
  dues : Decimal 2
  rate : Decimal 4
  commissionUsd : Decimal 2
  commissionNgn : Decimal 2
  fx : Decimal 4
  payment : Option Payment
  deriving DecidableEq, Repr

instance : Keyed InvoiceData Id := ⟨InvoiceData.id⟩

def invoiceData (users : List User) (steps : List InvoiceStatusStep) (i : Invoice) :
    InvoiceData where
  id := i.id
  invoiceNo := i.invoiceNo
  callId := i.vesselCallId
  inspectionId := i.inspectionId
  purpose := i.purpose
  currency := i.currency
  payer := i.payer
  reconciliationId := i.reconciliationId
  assessmentId := i.assessmentId
  lineItems := i.lineItems
  paidAmount := i.paidAmount
  outstandingAmount := i.outstandingAmount
  cargoType := i.cargoType
  issued := i.issuedOn
  due := i.dueOn
  status := i.status
  workflowStatus := workflowStepData (i.currentStatus.bind (Table.get · steps)) i.status
  statusHistory := i.events.map fun e =>
    (e, e.actor.map fun a => (actorData users a).name)
  dues := i.dues
  rate := i.rate
  commissionUsd := i.commissionUsd
  commissionNgn := i.commissionNgn
  fx := i.exchangeRate
  payment := (i.payments.filter Payment.standing).getLast?

end VesselCaller.Billing
