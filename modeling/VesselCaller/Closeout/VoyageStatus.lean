import VesselCaller.Closeout.Changes
import VesselCaller.Closeout.Readings
import VesselCaller.Operations.Model

/-!
# Where a voyage stands

`measurements/voyageStatus.ts`: the summary of a voyage, from which dashboard, voyage list and
stepper take its stage, and the four steps of the stepper.

The summary keeps what the stage and the steps are made from.  The totals on the label of the
first step are sums of floating-point numbers; they are a text that comes with the steps.

## Main definitions

* `lineDiffers`, `lineAnswered`, `agencyPending` — the parts of the summary;
* `VoyageSummary`, `summarizeVoyage` — the summary, with its `VoyageStage`;
* `VoyageSteps`, `voyageSteps` — the stepper.
-/

namespace VesselCaller.Closeout

open Lib
open Measurements (LineStatus PlanStatus)
open Operations (CallStatus)
open Comparison (quantityDifference grouped)

/-! ## Quantities -/

def validQuantity (value : Option String) : Bool :=
  value.any fun text => fixedPattern 15 6 (trim text).toList

/-- True when a submitted reading for this line differs from the declared quantity. -/
def lineDiffers (plan : MeasurementPlan) (line : CargoLine) : Bool :=
  (latestReturns plan).any fun submission =>
    match entryFor submission line with
    | none => false
    | some reading => reading.status = .reported &&
        quantityDifference reading.quantity line.manifestQuantity ≠ some "0"

/-! ## The summary -/

inductive VoyageStage where
  | declaration
  | collecting
  | ready
  | returned
  | approval
  | invoice
  | draft
  | noCharge
  | review
  | held
  | cancelled
  deriving DecidableEq, Repr

structure VoyageSummary where
  callId : String
  plans : List MeasurementPlan
  stage : VoyageStage
  received : ℕ
  expected : ℕ
  pendingAgencies : List String
  missingDeclarations : List String
  lineCount : ℕ
  differingLines : ℕ
  report : Option PreviewReport
  pending : Option PreviewReport
  returned : Option PreviewReport
  invoice : Option PreviewInvoice
  declaration : Option PaidDeclaration

/-- The latest version sent back to its preparer, if nothing newer has been submitted. -/
def returnedReport (record : CloseoutRecord) : Option PreviewReport :=
  record.reports.getLast?.filter fun report => reportStatus report = .returned

/-- Whether a return answers for a cargo line, as the summary has it. -/
def lineAnswered (reading : Submission) (line : CargoLine) : Bool :=
  match entryFor reading line with
  | none => false
  | some row =>
      match row.status with
      | .reported => validQuantity row.quantity
      | .notApplicable => trim row.note ≠ ""

/-- Whether the voyage waits for a participant. -/
def agencyPending (plan : MeasurementPlan) (party : Participant) : Bool :=
  party.requiredSubmission &&
    match returnOf plan party.id with
    | none => true
    | some reading => plan.lines.any fun line => !lineAnswered reading line

/-- The stage of a voyage with an approved and current report. -/
def reportStage (invoice : Option PreviewInvoice) : VoyageStage :=
  match invoice.map PreviewInvoice.status with
  | some .draft => .draft
  | some .noCharge => .noCharge
  | some .overpaymentReview => .review
  | some .held => .held
  | none => .invoice

section Summary

variable (rt : Runtime)

/-- `summarizeVoyage`, of a call with this status. -/
def summarizeVoyage (callId : String) (call : Option CallStatus) (allPlans : List MeasurementPlan)
    (record : Option CloseoutRecord) : VoyageSummary :=
  let cancelled := call = some .cancelled
  let plans := allPlans.filter fun plan => plan.status ≠ .cancelled
  let report := record.bind (currentReport rt plans)
  let pending := record.bind (pendingReport rt plans)
  let returned := record.bind returnedReport
  let invoice := report.bind fun report => record.bind fun record =>
    (record.invoices.filter fun item => item.reportId = report.id).getLast?
  let parties := plans.flatMap fun plan => plan.participants.map (plan, ·)
  let lines := plans.flatMap fun plan => plan.lines.map (plan, ·)
  let missingDeclarations := ((lines.filter fun item =>
    !validQuantity item.2.manifestQuantity).map fun item => item.2.description).eraseDups
  { callId := callId
    plans := plans
    stage :=
      if cancelled then .cancelled
      else if plans = [] ∨ missingDeclarations ≠ [] then .declaration
      else if report.isSome then reportStage invoice
      else if pending.isSome then .approval
      else if reconciliationIssues rt plans ≠ [] then .collecting
      else if returned.isSome then .returned
      else .ready
    received := (parties.filter fun item => (returnOf item.1 item.2.id).isSome).length
    expected := parties.length
    pendingAgencies := ((parties.filter fun item => agencyPending item.1 item.2).map
      fun item => item.2.name).eraseDups
    missingDeclarations := missingDeclarations
    lineCount := lines.length
    differingLines := (lines.filter fun item => lineDiffers item.1 item.2).length
    report := report
    pending := pending
    returned := returned
    invoice := if cancelled then none else invoice
    declaration := record.bind CloseoutRecord.declaration }

end Summary

/-! ## The steps -/

inductive StepState where
  | done
  | current
  | todo
  deriving DecidableEq, Repr

structure StepStatus where
  state : StepState
  label : String
  deriving DecidableEq, Repr

/-- The steps of a voyage, in their order. -/
structure VoyageSteps where
  declaration : StepStatus
  agencies : StepStatus
  readings : StepStatus
  variationInvoice : StepStatus
  deriving DecidableEq, Repr

/-- `money`. -/
def money (currency amount : String) : String :=
  match amount.toList.splitOn '.' with
  | whole :: fraction :: _ => currency ++ " " ++ String.ofList (grouped whole) ++ "." ++
      String.ofList (fraction.rightpad 2 '0')
  | whole => currency ++ " " ++ String.ofList (grouped (whole.headD [])) ++ ".00"

/-- `voyageSteps`, with the totals of the declaration. -/
def voyageSteps (totals : List CargoLine → String) (summary : VoyageSummary) : VoyageSteps :=
  let declared := totals (summary.plans.flatMap MeasurementPlan.lines)
  let paid := (summary.declaration.map fun d => d.paymentStatus) = some .paid
  let submitted := toString summary.received ++ " of " ++ toString summary.expected ++ " submitted"
  let differing := if summary.differingLines = 1 then "1 line differs"
    else toString summary.differingLines ++ " lines differ"
  { declaration :=
      if summary.plans = [] then ⟨.current, "Not started"⟩
      else if summary.missingDeclarations ≠ [] then ⟨.current, "Quantities missing"⟩
      else ⟨.done, (if paid then "Paid" else "Recorded") ++
        if declared ≠ "" then " · " ++ declared else ""⟩
    agencies :=
      if summary.plans = [] then ⟨.todo, "Not started"⟩
      else if summary.stage = .collecting then ⟨.current, submitted⟩
      else if summary.stage = .declaration then ⟨.todo, submitted⟩
      else ⟨.done, submitted⟩
    readings :=
      if summary.stage = .ready then
        ⟨.current, if summary.differingLines ≠ 0 then differing else "All lines agree"⟩
      else if summary.stage = .approval then ⟨.current, "Awaiting approval"⟩
      else if summary.stage = .returned then ⟨.current, "Returned for changes"⟩
      else
        match summary.report.filter fun _ => summary.stage ≠ .cancelled with
        | some report => ⟨.done, "Approved · v" ++ toString report.revision⟩
        | none => ⟨.todo, "After readings arrive"⟩
    variationInvoice :=
      match summary.stage, summary.invoice with
      | .invoice, _ => ⟨.current, "Details needed"⟩
      | .draft, some invoice => ⟨.current, "Draft · " ++ money invoice.currency invoice.total⟩
      | .noCharge, _ => ⟨.done, "No additional charge"⟩
      | .review, _ => ⟨.current, "Overpayment review"⟩
      | .held, _ => ⟨.current, "On hold"⟩
      | _, _ => ⟨.todo, "Drafted on approval"⟩ }

/-- The states of the steps, in their order. -/
def VoyageSteps.states (steps : VoyageSteps) : List StepState :=
  [steps.declaration.state, steps.agencies.state, steps.readings.state,
    steps.variationInvoice.state]

end VesselCaller.Closeout
