import VesselCaller.Billing.Model

/-!
# Billing services

`billing.services` and the number sequence of `api.domain`.  The services read
the organization's workflow steps and return them, because `active_default_step`
and `paid_step` first provision the default steps that are missing.

## Main definitions

* `ensureDefaultSteps`, `activeDefaultStep`, `paidStep` — the steps, provisioned where they are
  missing;
* `transitionInvoice`, `reconcilePaymentStatus` — the only writers of the status;
* `nextNumber` — the number sequences.
-/

namespace VesselCaller.Billing

open Lib Accounts

/-! ## Workflow steps -/

/-- `DEFAULT_WORKFLOW_STEPS`: code, label, position, is_paid, is_terminal and
is_protected. -/
def defaultWorkflowSteps : List (String × String × ℕ × Bool × Bool × Bool) :=
  [("pending-director-finance-review", "Pending Director of Finance Review", 10,
      false, false, false),
   ("pending-audit-review", "Pending Audit Review", 20, false, false, false),
   ("pending-md-review", "Pending MD Review", 30, false, false, false),
   ("pending-accounts-review", "Pending Accounts Review", 40, false, false, false),
   ("approved", "Approved", 50, false, false, false),
   ("paid", "Paid", 60, true, true, true)]

/-- Insert a step under the table's constraints: the primary key, the code and the
position are unique. -/
def createStep (steps : List InvoiceStatusStep) (step : InvoiceStatusStep) :
    Result (List InvoiceStatusStep) := do
  raiseIf (step.id ∈ Table.keys steps) (.integrity "billing_invoicestatusstep_pkey")
  raiseIf (step.code ∈ steps.map InvoiceStatusStep.code)
    (.integrity "billing_unique_invoice_status_code")
  raiseIf (step.position ∈ steps.map InvoiceStatusStep.position)
    (.integrity "billing_unique_invoice_status_position")
  return steps ++ [step]

/-- The row `ensure_default_steps` creates for one default. -/
def defaultStep (id : Id) (d : String × String × ℕ × Bool × Bool × Bool) : InvoiceStatusStep where
  id := id
  code := d.1
  label := d.2.1
  position := d.2.2.1
  active := true
  notifyOnEntry := !d.2.2.2.1
  notificationRoles := if d.2.2.2.1 then [] else [.admin, .finance]
  isPaid := d.2.2.2.1
  isTerminal := d.2.2.2.2.1
  isProtected := d.2.2.2.2.2

/-- One `get_or_create` of `ensure_default_steps`. -/
def ensureDefaultStep (ctx : Ctx) (steps : List InvoiceStatusStep)
    (d : (String × String × ℕ × Bool × Bool × Bool) × ℕ) : Result (List InvoiceStatusStep) :=
  if d.1.1 ∈ steps.map InvoiceStatusStep.code then pure steps
  else createStep steps (defaultStep (ctx.uuid (1000 + d.2)) d.1)

/-- `ensure_default_steps`. -/
def ensureDefaultSteps (ctx : Ctx) (steps : List InvoiceStatusStep) :
    Result (List InvoiceStatusStep) :=
  defaultWorkflowSteps.zipIdx.foldlM (ensureDefaultStep ctx) steps

/-- An active step that is neither paid nor terminal. -/
def InvoiceStatusStep.open (s : InvoiceStatusStep) : Bool :=
  s.active && !s.isPaid && !s.isTerminal

/-- `active_default_step`. -/
def activeDefaultStep (ctx : Ctx) (steps : List InvoiceStatusStep) :
    Result (InvoiceStatusStep × List InvoiceStatusStep) := do
  let steps ← ensureDefaultSteps ctx steps
  let step ← orRaise (sortBy InvoiceStatusStep.position (steps.filter InvoiceStatusStep.open)).head?
    (.server "No active non-paid invoice status step is configured")
  return (step, steps)

/-- `paid_step`. -/
def paidStep (ctx : Ctx) (steps : List InvoiceStatusStep) :
    Result (InvoiceStatusStep × List InvoiceStatusStep) := do
  let steps ← ensureDefaultSteps ctx steps
  let step ← orRaise (sortBy InvoiceStatusStep.position (steps.filter InvoiceStatusStep.isPaid)).head?
    (.server "Paid invoice status step is not configured")
  return (step, steps)

/-- Write positions one row after the other: each write is checked against the range
of a small integer and against the positions of the other rows as they stand. -/
def writePositions (steps : List InvoiceStatusStep) (writes : List (Id × ℕ)) :
    Result (List InvoiceStatusStep) :=
  positionColumn.writeAll 32767 (.server "smallint out of range")
    (.integrity "billing_unique_invoice_status_position") steps writes

/-- `update(position=F("position") + 10_000)` of all steps. -/
def shiftPositions (ctx : Ctx) (steps : List InvoiceStatusStep) :
    Result (List InvoiceStatusStep) :=
  writePositions steps ((sortBy (fun s => ctx.rowRank s.id) steps).map fun s =>
    (s.id, s.position + 10000))

/-! ## Status transitions -/

/-- The event `append_status_event` records. -/
def statusEvent (ctx : Ctx) (source target : Option InvoiceStatusStep)
    (origin : EventSource) (actor : Option Id) (note : String) : InvoiceStatusEvent where
  id := ctx.uuid 2000
  fromStep := source.map InvoiceStatusStep.id
  toStep := target.map InvoiceStatusStep.id
  fromCode := (source.map InvoiceStatusStep.code).getD ""
  fromLabel := (source.map InvoiceStatusStep.label).getD ""
  toCode := (target.map InvoiceStatusStep.code).getD "void"
  toLabel := (target.map InvoiceStatusStep.label).getD "Void"
  source := origin
  note := note
  actor := actor
  createdAt := ctx.now

/-- `append_status_event`. -/
def appendStatusEvent (invoice : Invoice) (event : InvoiceStatusEvent) : Invoice :=
  { invoice with events := invoice.events ++ [event] }

/-- The legacy status a step stands for. -/
def statusOfStep (step : Option InvoiceStatusStep) : InvoiceStatus :=
  match step with
  | none => .void
  | some s => if s.isPaid then .paid else .unpaid

/-- `transition_invoice`.  The flag says whether an event was recorded. -/
def transitionInvoice (ctx : Ctx) (steps : List InvoiceStatusStep) (invoice : Invoice)
    (step : Option InvoiceStatusStep) (source : EventSource) (actor : Option Id)
    (note : String) : Result (Invoice × Bool) := do
  raiseIf (source = .manual ∧ step.any (fun s => !s.active) = true)
    (.server "Choose an active invoice status")
  let previous := invoice.currentStatus.bind (Table.get · steps)
  if invoice.currentStatus = step.map InvoiceStatusStep.id ∧ invoice.status ≠ .void then
    return (invoice, false)
  else
    let invoice := { invoice with
      currentStatus := step.map InvoiceStatusStep.id
      status := statusOfStep step }
    return (appendStatusEvent invoice (statusEvent ctx previous step source actor note), true)

/-- The latest step of the history that is still open. -/
def latestOpenStep (steps : List InvoiceStatusStep) (invoice : Invoice) :
    Option InvoiceStatusStep :=
  invoice.events.reverse.findSome? fun e =>
    (e.toStep.bind (Table.get · steps)).filter InvoiceStatusStep.open

/-- `reconcile_payment_status`: enter Paid once cleared; restore the latest valid
non-paid step on reversal. -/
def reconcilePaymentStatus (ctx : Ctx) (steps : List InvoiceStatusStep) (invoice : Invoice)
    (source : EventSource) (actor : Option Id) :
    Result (Invoice × List InvoiceStatusStep) := do
  if invoice.status = .void then
    return (invoice, steps)
  else if invoice.currentPaid ≥ invoice.dues then
    let (step, steps) ← paidStep ctx steps
    let (invoice, _) ← transitionInvoice ctx steps invoice (some step) source actor ""
    return (invoice, steps)
  else if (invoice.currentStatus.bind (Table.get · steps)).any (fun s => !s.isPaid) then
    return (invoice, steps)
  else
    match latestOpenStep steps invoice with
    | some step =>
        let (invoice, _) ← transitionInvoice ctx steps invoice (some step) source actor ""
        return (invoice, steps)
    | none =>
        let (step, steps) ← activeDefaultStep ctx steps
        let (invoice, _) ← transitionInvoice ctx steps invoice (some step) source actor ""
        return (invoice, steps)

/-! ## Document numbers -/

/-- A number padded with zeros to four digits. -/
def pad4 (n : ℕ) : String :=
  let digits := toString n
  String.ofList (List.replicate (4 - digits.length) '0') ++ digits

/-- `next_number`: advance the sequence of the kind and the local year. -/
def nextNumber (ctx : Ctx) (sequences : List NumberSequence) (kind : SequenceKind)
    (stem : String) : String × List NumberSequence :=
  let year := Date.year ctx.localdate
  let value := ((sequences.find? fun s => s.kind = kind ∧ s.year = year).map
    NumberSequence.value).getD 0 + 1
  let rest := sequences.filter fun s => ¬(s.kind = kind ∧ s.year = year)
  (stem ++ "-" ++ toString year ++ "-" ++ pad4 value, ⟨kind, year, value⟩ :: rest)

end VesselCaller.Billing
