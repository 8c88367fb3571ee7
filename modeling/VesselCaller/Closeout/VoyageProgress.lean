import VesselCaller.Closeout.Printer
import VesselCaller.Closeout.ReadingsTable
import VesselCaller.Closeout.Reports
import VesselCaller.Closeout.Storage
import VesselCaller.Closeout.VoyageStatus

/-!
# Stages, steps and differences

The dashboard and the close-out decide the same things separately.  Whether a voyage can be
reconciled is asked by `reconciliationIssues`, which lists what is missing with the parser of
the calculation, and by the summary, which collects names with a pattern; the two agree on
every list of plans (`reconciliation_gate`).

The stepper derives four states from the stage and from what is current.  That a report which
is current implies complete declarations is not visible there: it holds because a report was
submitted for complete sheets and is current only for the same inputs.

Whether a line differs is asked by `lineDiffers` and by the table of readings.  They part
where a line has no declared quantity: the table has nothing to compare with, `lineDiffers`
counts every reported reading.

## Main definitions

* `ServerReturns` — returns as a server sends them;
* `Comparable` — every line has a declared quantity, or no report;
* `stageOf`, `IsProgress` — the stage, and the shapes a stepper may have;
* `CountsAlike` — the dashboard and the table count the same lines as differing.
-/

namespace VesselCaller.Closeout

open Lib
open Measurements (LineStatus PlanStatus)
open Operations (CallStatus)
open Comparison (quantityDifference Denotes)

/-! ## The gate -/

theorem validQuantity_eq (value : Option String) :
    validQuantity value = (decimal value 6 15).isSome := by
  cases value with
  | none => rfl
  | some text => rw [validQuantity, Option.any_some, decimal_some, fixedPattern_eq]

/-- Both ask the same of a line of a return. -/
theorem lineAnswered_eq (reading : Submission) (line : CargoLine) :
    lineAnswered reading line = answers reading line := by
  unfold lineAnswered answers entryFor
  cases reading.lines.find? fun item => item.lineId = line.id with
  | none => rfl
  | some row =>
      dsimp only
      cases row.status with
      | reported => exact validQuantity_eq _
      | notApplicable => rfl

theorem agencyPending_iff (plan : MeasurementPlan) (party : Participant) :
    agencyPending plan party = true ↔
      party.requiredSubmission = true ∧ readingIssues plan party ≠ [] := by
  have hreturn : returnOf plan party.id =
      (latestReturns plan).find? fun r => r.participantId = party.id := rfl
  unfold agencyPending readingIssues
  rw [Bool.and_eq_true, ← hreturn]
  refine and_congr_right fun _ => ?_
  cases returnOf plan party.id with
  | none => simp
  | some reading =>
      dsimp only
      rw [List.any_eq_true, ne_eq, List.map_eq_nil_iff, List.filter_eq_nil_iff]
      simp only [lineAnswered_eq, Bool.not_eq_true', not_forall, exists_prop, Bool.not_eq_false,
        Bool.not_eq_true]

/-- A sheet without issues. -/
theorem planIssues_eq_nil {plan : MeasurementPlan} :
    planIssues plan = [] ↔ plan.lines ≠ [] ∧
      (∀ line ∈ plan.lines, validQuantity line.manifestQuantity = true) ∧
      ∀ party ∈ plan.participants, agencyPending plan party = false := by
  have hagency : ∀ party, agencyPending plan party = false ↔
      (party.requiredSubmission = true → readingIssues plan party = []) := by
    intro party
    rw [← Bool.not_eq_true, agencyPending_iff, not_and, not_not]
  unfold planIssues
  rw [List.append_eq_nil_iff, List.append_eq_nil_iff, List.map_eq_nil_iff, List.filter_eq_nil_iff,
    List.flatMap_eq_nil_iff, and_assoc]
  refine and_congr ?_ (and_congr ?_ ?_)
  · by_cases hlines : plan.lines = [] <;> simp [hlines]
  · simp only [validQuantity_eq, decide_eq_true_eq, Option.isSome_iff_ne_none, ne_eq]
  · simp only [hagency, List.mem_filter, and_imp]

/-- No text is left of an empty list of names, and only then. -/
theorem eraseDups_eq_nil_iff {xs : List String} : xs.eraseDups = [] ↔ xs = [] := by
  cases xs <;> simp [List.eraseDups_cons]

section Gate

variable (rt : Runtime) (callId : String) (call : Option CallStatus)
  (plans : List MeasurementPlan) (record : Option CloseoutRecord)

theorem mem_plans {plan : MeasurementPlan} :
    plan ∈ (summarizeVoyage rt callId call plans record).plans ↔
      plan ∈ plans ∧ plan.status ≠ .cancelled := by
  show plan ∈ plans.filter _ ↔ _
  rw [List.mem_filter, decide_eq_true_eq]

theorem missingDeclarations_eq_nil :
    (summarizeVoyage rt callId call plans record).missingDeclarations = [] ↔
      ∀ plan ∈ plans, plan.status ≠ .cancelled →
        ∀ line ∈ plan.lines, validQuantity line.manifestQuantity = true := by
  show List.eraseDups _ = [] ↔ _
  rw [eraseDups_eq_nil_iff, List.map_eq_nil_iff, List.filter_eq_nil_iff]
  simp only [List.mem_flatMap, List.mem_map, List.mem_filter, decide_eq_true_eq, ne_eq,
    Bool.not_eq_true', Bool.not_eq_false, forall_exists_index, and_imp]
  constructor
  · intro h plan hplan hstatus line hline
    exact h (plan, line) plan hplan hstatus line hline rfl
  · rintro h _ plan hplan hstatus line hline rfl
    exact h plan hplan hstatus line hline

theorem pendingAgencies_eq_nil :
    (summarizeVoyage rt callId call plans record).pendingAgencies = [] ↔
      ∀ plan ∈ plans, plan.status ≠ .cancelled →
        ∀ party ∈ plan.participants, agencyPending plan party = false := by
  show List.eraseDups _ = [] ↔ _
  rw [eraseDups_eq_nil_iff, List.map_eq_nil_iff, List.filter_eq_nil_iff]
  simp only [List.mem_flatMap, List.mem_map, List.mem_filter, decide_eq_true_eq, ne_eq,
    Bool.not_eq_true, forall_exists_index, and_imp]
  constructor
  · intro h plan hplan hstatus party hparty
    exact h (plan, party) plan hplan hstatus party hparty rfl
  · rintro h _ plan hplan hstatus party hparty rfl
    exact h plan hplan hstatus party hparty

/-- **The two gates agree**, on every list of plans. -/
theorem reconciliationIssues_eq_nil : reconciliationIssues rt plans = [] ↔
    (∃ plan ∈ plans, plan.status ≠ .cancelled) ∧
    (∀ plan ∈ plans, plan.status ≠ .cancelled → plan.lines ≠ []) ∧
    (summarizeVoyage rt callId call plans record).missingDeclarations = [] ∧
    (summarizeVoyage rt callId call plans record).pendingAgencies = [] := by
  have hactive : activePlans rt plans = [] ↔ ¬∃ plan ∈ plans, plan.status ≠ .cancelled := by
    rw [List.eq_nil_iff_forall_not_mem]
    simp only [mem_activePlans, not_exists]
  rw [missingDeclarations_eq_nil, pendingAgencies_eq_nil]
  unfold reconciliationIssues
  split
  · rename_i hnone
    simp only [List.cons_ne_nil, false_iff, not_and]
    exact fun h => absurd h (hactive.mp hnone)
  · rename_i hsome
    rw [List.flatMap_eq_nil_iff]
    simp only [mem_activePlans, planIssues_eq_nil, and_imp]
    constructor
    · intro h
      exact ⟨not_not.mp (hactive.not.mp hsome), fun plan hplan hstatus => (h plan hplan hstatus).1,
        fun plan hplan hstatus => (h plan hplan hstatus).2.1,
        fun plan hplan hstatus => (h plan hplan hstatus).2.2⟩
    · rintro ⟨-, hlines, hdeclared, hagencies⟩ plan hplan hstatus
      exact ⟨hlines plan hplan hstatus, hdeclared plan hplan hstatus, hagencies plan hplan hstatus⟩

end Gate

/-! ## Current reports -/

section Reports

variable {rt : Runtime} {plans : List MeasurementPlan} {record : CloseoutRecord}

/-- Where the fingerprints separate the inputs, a report that is current was submitted for
sheets of the same inputs, which are complete. -/
theorem complete_of_matchesInputs (hinj : Function.Injective rt.stringify)
    {report : PreviewReport} (hfrom : FromSheets rt report)
    (hmatches : matchesInputs rt report plans = true) :
    activePlans rt plans ≠ [] ∧ ∀ plan ∈ activePlans rt plans, ∀ line ∈ plan.lines,
      validQuantity line.manifestQuantity = true := by
  obtain ⟨sheets, input, hsheets⟩ := hfrom
  have hprint : voyageInputFingerprint rt plans =
      voyageInputFingerprint rt (activePlans rt sheets) := by
    rw [← hsheets.fingerprint]
    unfold matchesInputs at hmatches
    rw [Bool.and_eq_true, decide_eq_true_eq] at hmatches
    exact hmatches.1.symm
  have hinputs : (activePlans rt plans).map (planInputs rt) =
      (activePlans rt (activePlans rt sheets)).map (planInputs rt) := hinj hprint
  have hcomplete := (reconciliationIssues_eq_nil rt "" none (activePlans rt sheets) none).mp
    hsheets.complete
  obtain ⟨⟨sheet, hsheet, hactive⟩, -, hmissing, -⟩ := hcomplete
  rw [missingDeclarations_eq_nil] at hmissing
  constructor
  · intro hnil
    rw [hnil, List.map_nil] at hinputs
    have hnone := List.map_eq_nil_iff.mp hinputs.symm
    have hmem : sheet ∈ activePlans rt (activePlans rt sheets) :=
      mem_activePlans.mpr ⟨hsheet, hactive⟩
    rw [hnone] at hmem
    exact absurd hmem List.not_mem_nil
  · intro plan hplan line hline
    have hsame : planInputs rt plan ∈
        (activePlans rt (activePlans rt sheets)).map (planInputs rt) :=
      hinputs ▸ List.mem_map_of_mem hplan
    obtain ⟨source, hsource, heq⟩ := List.mem_map.mp hsame
    obtain ⟨hsource, hstatus⟩ := mem_activePlans.mp hsource
    have hlines : source.lines = plan.lines := congrArg PlanInputs.lines heq
    exact hmissing source hsource hstatus line (hlines ▸ hline)

end Reports

/-! ## The steps -/

/-- A run of steps that are done, then at most one that is current, then steps to do. -/
def IsProgress (states : List StepState) : Prop :=
  ∃ d c t, c ≤ 1 ∧ states =
    List.replicate d .done ++ List.replicate c .current ++ List.replicate t .todo

/-- The stage of a voyage whose call is not cancelled. -/
def stageOf (s : VoyageSummary) (blocked : Bool) : VoyageStage :=
  if s.plans = [] ∨ s.missingDeclarations ≠ [] then .declaration
  else if s.report.isSome then reportStage s.invoice
  else if s.pending.isSome then .approval
  else if blocked then .collecting
  else if s.returned.isSome then .returned
  else .ready

theorem summarizeVoyage_stage (rt : Runtime) (callId : String) {call : Option CallStatus}
    (hcall : call ≠ some .cancelled) (plans : List MeasurementPlan)
    (record : Option CloseoutRecord) : (summarizeVoyage rt callId call plans record).stage =
      stageOf (summarizeVoyage rt callId call plans record)
        (reconciliationIssues rt (summarizeVoyage rt callId call plans record).plans ≠ []) := by
  unfold summarizeVoyage stageOf
  simp only [hcall, if_false, decide_eq_true_eq]

/-- The steps, by what decides the stage. -/
theorem steps_progress (totals : List CargoLine → String) {s : VoyageSummary} {blocked : Bool}
    (hstage : s.stage = stageOf s blocked)
    (hreport : s.report.isSome = true → s.plans ≠ [] ∧ s.missingDeclarations = []) :
    IsProgress (voyageSteps totals s).states ∧
      (s.stage ≠ .noCharge → (voyageSteps totals s).states.count .current = 1) := by
  -- It suffices to know the states; `n` of the steps are done.
  have hcurrent : ∀ n, n ≤ 3 → (voyageSteps totals s).states =
      List.replicate n .done ++ [.current] ++ List.replicate (3 - n) .todo →
      IsProgress (voyageSteps totals s).states ∧
        (s.stage ≠ .noCharge → (voyageSteps totals s).states.count .current = 1) := by
    intro n hn hstates
    refine ⟨⟨n, 1, 3 - n, le_rfl, hstates⟩, fun _ => ?_⟩
    rw [hstates]
    simp [List.count_append, List.count_replicate]
  have hnoReport : ∀ {P : Prop}, (s.report.isSome = true → P) → ¬P → s.report = none := by
    intro P h hP
    rw [← Option.not_isSome_iff_eq_none]
    exact fun hsome => hP (h hsome)
  unfold stageOf at hstage
  by_cases hplans : s.plans = []
  · have hnone := hnoReport hreport fun h => h.1 hplans
    rw [if_pos (.inl hplans)] at hstage
    refine hcurrent 0 (by decide) ?_
    simp [VoyageSteps.states, voyageSteps, hplans, hstage, hnone]
  by_cases hmissing : s.missingDeclarations ≠ []
  · have hnone := hnoReport hreport fun h => hmissing h.2
    rw [if_pos (.inr hmissing)] at hstage
    refine hcurrent 0 (by decide) ?_
    simp [VoyageSteps.states, voyageSteps, hplans, hmissing, hstage, hnone]
  have hdeclared : ¬(s.plans = [] ∨ s.missingDeclarations ≠ []) := not_or.mpr ⟨hplans, hmissing⟩
  have hmissing : s.missingDeclarations = [] := not_not.mp hmissing
  rw [if_neg hdeclared] at hstage
  cases hfound : s.report with
  | some report =>
      rw [hfound, Option.isSome_some, if_pos rfl] at hstage
      unfold reportStage at hstage
      cases hinvoice : s.invoice with
      | none =>
          rw [hinvoice] at hstage
          dsimp only [Option.map_none] at hstage
          refine hcurrent 3 (by decide) ?_
          simp [VoyageSteps.states, voyageSteps, hplans, hmissing, hstage, hfound, Option.filter]
      | some invoice =>
          rw [hinvoice, Option.map_some] at hstage
          cases hstatus : invoice.status with
          | noCharge =>
              rw [hstatus] at hstage
              dsimp only at hstage
              refine ⟨⟨4, 0, 0, by decide, ?_⟩, fun h => absurd hstage h⟩
              simp [VoyageSteps.states, voyageSteps, hplans, hmissing, hstage, hfound, Option.filter]
          | _ =>
              rw [hstatus] at hstage
              dsimp only at hstage
              refine hcurrent 3 (by decide) ?_
              simp [VoyageSteps.states, voyageSteps, hplans, hmissing, hstage, hfound,
                hinvoice, Option.filter]
  | none =>
      rw [hfound, Option.isSome_none, if_neg Bool.false_ne_true] at hstage
      by_cases hpending : s.pending.isSome = true
      · rw [if_pos hpending] at hstage
        refine hcurrent 2 (by decide) ?_
        simp [VoyageSteps.states, voyageSteps, hplans, hmissing, hstage]
      rw [if_neg hpending] at hstage
      by_cases hblocked : blocked = true
      · rw [if_pos hblocked] at hstage
        refine hcurrent 1 (by decide) ?_
        simp [VoyageSteps.states, voyageSteps, hplans, hmissing, hstage, hfound, Option.filter]
      rw [if_neg hblocked] at hstage
      refine hcurrent 2 (by decide) ?_
      by_cases hreturned : s.returned.isSome = true
      · rw [if_pos hreturned] at hstage
        simp [VoyageSteps.states, voyageSteps, hplans, hmissing, hstage]
      · rw [if_neg hreturned] at hstage
        simp [VoyageSteps.states, voyageSteps, hplans, hmissing, hstage]

/-- **Stages and gates agree.**  A list of plans has no reconciliation issues exactly when it
has a plan in force, every plan in force has a cargo line, and the summary misses neither
declarations nor agencies.  And the steps of a voyage whose call is not cancelled are a run of
steps done, one that is current unless nothing is to be charged, and steps to do, for every
record that the calls on the previews can leave. -/
theorem voyage_progress (rt : Runtime) (hinj : Function.Injective rt.stringify) :
    (∀ callId call plans record, reconciliationIssues rt plans = [] ↔
      (∃ plan ∈ plans, plan.status ≠ .cancelled) ∧
      (∀ plan ∈ plans, plan.status ≠ .cancelled → plan.lines ≠ []) ∧
      (summarizeVoyage rt callId call plans record).missingDeclarations = [] ∧
      (summarizeVoyage rt callId call plans record).pendingAgencies = []) ∧
    ∀ (start : LocalStorage) (rs : List Request),
      (∀ key callId, (start.record key callId).reports = []) →
      ∀ key callId call plans totals, call ≠ some .cancelled →
        let summary := summarizeVoyage rt callId call plans
          (Table.get callId ((run (handle rt) start rs).saved key))
        IsProgress (voyageSteps totals summary).states ∧
          (summary.stage ≠ .noCharge →
            (voyageSteps totals summary).states.count .current = 1) := by
  refine ⟨fun callId call plans record => reconciliationIssues_eq_nil rt callId call plans record,
    fun start rs hstart key callId call plans totals hcall => ?_⟩
  refine steps_progress totals (summarizeVoyage_stage rt callId hcall plans _) fun hreport => ?_
  obtain ⟨report, hreport⟩ := Option.isSome_iff_exists.mp hreport
  obtain ⟨record, hrecord, hcurrent⟩ := Option.bind_eq_some_iff.mp hreport
  obtain ⟨hmem, hmatches⟩ := mem_of_currentReport hcurrent
  have hsaved : (run (handle rt) start rs).record key callId = record := by
    rw [LocalStorage.record, recordOf, hrecord, Option.getD_some]
  have hfrom : FromSheets rt report := by
    refine run_fromSheets (fun key callId report h => ?_) rs key callId report (hsaved ▸ hmem)
    rw [hstart key callId] at h
    cases h
  obtain ⟨hsome, hdeclared⟩ := complete_of_matchesInputs hinj hfrom hmatches
  obtain ⟨plan, hplan⟩ := List.exists_mem_of_ne_nil _ hsome
  obtain ⟨hplan, -⟩ := mem_activePlans.mp hplan
  refine ⟨List.ne_nil_of_mem hplan, ?_⟩
  rw [missingDeclarations_eq_nil]
  intro plan hplan hstatus
  have hactive : plan ∈ activePlans rt
      (summarizeVoyage rt callId call plans (some record)).plans :=
    mem_activePlans.mpr ⟨(mem_plans rt callId call plans (some record)).mpr ⟨hplan, hstatus⟩,
      hstatus⟩
  exact hdeclared plan hactive

/-- The gate and the steps of the sample voyage, whose report has been approved. -/
theorem voyage_progress_sample :
    reconciliationIssues Sample.printer [Sample.plan] = [] ∧
      let summary := summarizeVoyage Sample.printer "call-1" none [Sample.plan]
        (Table.get "call-1" ((run (handle Sample.printer) Sample.start Sample.calls).saved
          Sample.key))
      IsProgress (voyageSteps (fun _ => "") summary).states ∧
        (summary.stage ≠ .noCharge →
          (voyageSteps (fun _ => "") summary).states.count .current = 1) := by
  obtain ⟨hgate, hsteps⟩ := voyage_progress Sample.printer Sample.printer_injective
  refine ⟨(hgate "" none [Sample.plan] none).mpr ⟨⟨Sample.plan, by simp, by decide⟩, ?_, ?_, ?_⟩,
    hsteps Sample.start Sample.calls (fun _ _ => rfl) Sample.key "call-1" none [Sample.plan] _
      (by decide)⟩
  · intro plan hplan _
    rw [List.mem_singleton.mp hplan]
    decide
  · decide +kernel
  · decide +kernel

/-! ## Lines that differ -/

/-- A plan as the server emits it: returns are those of its participants, and a reported
reading has a quantity. -/
structure ServerReturns (plan : MeasurementPlan) : Prop extends ServerReadings plan where
  parties : ∀ submission ∈ plan.submissions,
    ∃ party ∈ plan.participants, party.id = submission.participantId
  reported : ∀ submission ∈ plan.submissions, ∀ entry ∈ submission.lines,
    entry.status = .reported → entry.quantity ≠ none

/-- The dashboard and the table of readings count the same lines as differing. -/
def CountsAlike (texts : Texts) (rt : Runtime) (plans : List MeasurementPlan) : Prop :=
  (∀ plan ∈ plans, ∀ line ∈ plan.lines, lineDiffers plan line =
    (readingRow texts (agencyColumns texts plans) plan line).differs) ∧
  ∀ callId call record, (summarizeVoyage rt callId call plans record).differingLines =
    ((readingRows texts (agencyColumns texts plans) plans).filter ReadingRow.differs).length

/-- Every line has a declared quantity, or no latest return reports it. -/
def Comparable (plans : List MeasurementPlan) : Prop :=
  ∀ plan ∈ plans, ∀ line ∈ plan.lines, line.manifestQuantity ≠ none ∨
    ∀ submission ∈ latestReturns plan, ∀ entry, entryFor submission line = some entry →
      entry.status ≠ .reported

section Differences

variable {texts : Texts} {rt : Runtime} {plans : List MeasurementPlan} {plan : MeasurementPlan}
  {line : CargoLine}

/-- What the latest returns report of a line is what the participants report. -/
theorem exists_reported_iff (h : ServerReturns plan) {P : String → Prop} :
    (∃ submission ∈ latestReturns plan, ∃ entry, entryFor submission line = some entry ∧
      entry.status = .reported ∧ ∃ quantity, entry.quantity = some quantity ∧ P quantity) ↔
    ∃ party ∈ plan.participants, ∃ quantity,
      reportedBy plan line party = some quantity ∧ P quantity := by
  constructor
  · rintro ⟨submission, hlatest, entry, hentry, hstatus, quantity, hquantity, hP⟩
    obtain ⟨party, hparty, hid⟩ :=
      h.parties submission ((kept_latestReturns plan).mem submission hlatest)
    have hreturn : returnOf plan party.id = some submission :=
      returnOf_eq_some.mpr ⟨hlatest, hid.symm⟩
    refine ⟨party, hparty, quantity, ?_, hP⟩
    rw [reportedBy, hreturn, Option.bind_some, hentry, Option.bind_some, if_pos hstatus, hquantity]
  · rintro ⟨party, hparty, quantity, hreported, hP⟩
    obtain ⟨entry, hentry, hquantity⟩ := Option.bind_eq_some_iff.mp hreported
    obtain ⟨submission, hreturn, hfind⟩ := Option.bind_eq_some_iff.mp hentry
    split at hquantity
    · rename_i hstatus
      exact ⟨submission, (returnOf_eq_some.mp hreturn).1, entry, hfind, hstatus, quantity,
        hquantity, hP⟩
    · cases hquantity

/-- `lineDiffers`, over what the participants report. -/
theorem lineDiffers_iff (h : ServerReturns plan) : lineDiffers plan line = true ↔
    ∃ party ∈ plan.participants, ∃ quantity, reportedBy plan line party = some quantity ∧
      quantityDifference (some quantity) line.manifestQuantity ≠ some "0" := by
  rw [← exists_reported_iff h]
  unfold lineDiffers
  rw [List.any_eq_true]
  refine exists_congr fun submission => and_congr_right fun hlatest => ?_
  have hmem := (kept_latestReturns plan).mem submission hlatest
  cases hentry : entryFor submission line with
  | none => simp
  | some entry =>
      simp only [Bool.and_eq_true, decide_eq_true_eq, Option.some_inj]
      constructor
      · rintro ⟨hstatus, hdiffers⟩
        obtain ⟨quantity, hquantity⟩ := Option.ne_none_iff_exists'.mp
          (h.reported submission hmem entry (List.mem_of_find?_eq_some hentry) hstatus)
        exact ⟨entry, rfl, hstatus, quantity, hquantity, hquantity ▸ hdiffers⟩
      · rintro ⟨_, rfl, hstatus, quantity, hquantity, hdiffers⟩
        exact ⟨hstatus, hquantity ▸ hdiffers⟩

/-- The flag of a row, over what the participants report. -/
theorem row_differs_iff (hplan : plan ∈ plans) :
    (readingRow texts (agencyColumns texts plans) plan line).differs = true ↔
      ∃ party ∈ plan.participants, ∃ quantity, reportedBy plan line party = some quantity ∧
        quantityDifference (some quantity) line.manifestQuantity ≠ none ∧
        quantityDifference (some quantity) line.manifestQuantity ≠ some "0" := by
  rw [row_differs]
  simp only [(partiesInOrder_perm hplan).mem_iff]
  refine exists_congr fun party => and_congr_right fun _ => ?_
  unfold ReadingCell.differs
  rw [readingCell_reported]
  cases hreported : reportedBy plan line party with
  | none => simp
  | some quantity => simp [readingCell_difference hreported]

/-- Line by line, the two part exactly where there is nothing to compare with. -/
theorem lineDiffers_eq_iff (hplan : plan ∈ plans) (h : ServerReturns plan)
    (hline : line ∈ plan.lines) :
    lineDiffers plan line = (readingRow texts (agencyColumns texts plans) plan line).differs ↔
      line.manifestQuantity ≠ none ∨ ∀ submission ∈ latestReturns plan, ∀ entry,
        entryFor submission line = some entry → entry.status ≠ .reported := by
  cases hmanifest : line.manifestQuantity with
  | some declared =>
      refine iff_of_true (Bool.eq_iff_iff.mpr ?_) (.inl (by simp))
      rw [lineDiffers_iff h, row_differs_iff hplan]
      refine exists_congr fun party => and_congr_right fun _ => exists_congr fun quantity =>
        and_congr_right fun hreported => ?_
      obtain ⟨difference, hdifference, -⟩ := Comparison.quantityDifference_pronounces
        (h.isQuantity hreported).denotes (h.declared line hline declared hmanifest).denotes
      rw [hmanifest, hdifference]
      simp
  | none =>
      -- Against no declaration the table finds no difference; the dashboard counts every reading.
      have hnever : ∀ quantity, quantityDifference quantity none = none := by
        intro quantity
        exact Comparison.quantityDifference_eq_none.mpr (.inr fun y hy => by
          obtain ⟨text, n, hnone, -⟩ := hy
          cases hnone)
      have hrow : (readingRow texts (agencyColumns texts plans) plan line).differs = false := by
        rw [Bool.eq_false_iff, ne_eq, row_differs_iff hplan, hmanifest]
        rintro ⟨_, _, quantity, _, hsome, _⟩
        exact hsome (hnever _)
      rw [hrow, ← Bool.not_eq_true, lineDiffers_iff h, hmanifest]
      have hreports := @exists_reported_iff plan line h (fun _ => True)
      simp only [hnever, ne_eq, reduceCtorEq, not_false_eq_true] at hreports ⊢
      rw [← hreports]
      constructor
      · intro hno
        refine .inr fun submission hlatest entry hentry hstatus => hno ?_
        obtain ⟨quantity, hquantity⟩ := Option.ne_none_iff_exists'.mp
          (h.reported submission ((kept_latestReturns plan).mem submission hlatest) entry
            (List.mem_of_find?_eq_some hentry) hstatus)
        exact ⟨submission, hlatest, entry, hentry, hstatus, quantity, hquantity, trivial⟩
      · rintro (hfalse | hnone) ⟨submission, hlatest, entry, hentry, hstatus, -⟩
        · exact hfalse trivial
        · exact hnone submission hlatest entry hentry hstatus

/-- Where every line is decided alike, so is their number. -/
theorem differingLines_eq (hactive : ∀ plan ∈ plans, plan.status ≠ .cancelled)
    (h : ∀ plan ∈ plans, ∀ line ∈ plan.lines, lineDiffers plan line =
      (readingRow texts (agencyColumns texts plans) plan line).differs)
    (callId : String) (call : Option CallStatus) (record : Option CloseoutRecord) :
    (summarizeVoyage rt callId call plans record).differingLines =
      ((readingRows texts (agencyColumns texts plans) plans).filter
        ReadingRow.differs).length := by
  have hplans : plans.filter (fun plan => plan.status ≠ .cancelled) = plans :=
    List.filter_eq_self.mpr fun plan hplan => decide_eq_true (hactive plan hplan)
  show (((plans.filter fun plan => plan.status ≠ .cancelled).flatMap fun plan =>
    plan.lines.map (plan, ·)).filter fun item => lineDiffers item.1 item.2).length = _
  rw [hplans, readingRows, List.filter_flatMap, List.filter_flatMap, List.length_flatMap,
    List.length_flatMap]
  refine congrArg List.sum (List.map_congr_left fun plan hplan => ?_)
  rw [List.filter_map, List.filter_map, List.length_map, List.length_map]
  refine congrArg List.length (List.filter_congr fun line hline => ?_)
  exact h plan hplan line hline

/-- **When the dashboard and the table count alike.** -/
theorem differences_counted (texts : Texts) (rt : Runtime) {plans : List MeasurementPlan}
    (hserver : ∀ plan ∈ plans, ServerReturns plan)
    (hactive : ∀ plan ∈ plans, plan.status ≠ .cancelled) :
    CountsAlike texts rt plans ↔ Comparable plans := by
  constructor
  · rintro ⟨hlines, -⟩ plan hplan line hline
    exact (lineDiffers_eq_iff hplan (hserver plan hplan) hline).mp (hlines plan hplan line hline)
  · intro hcomparable
    have hlines : ∀ plan ∈ plans, ∀ line ∈ plan.lines, lineDiffers plan line =
        (readingRow texts (agencyColumns texts plans) plan line).differs :=
      fun plan hplan line hline =>
        (lineDiffers_eq_iff hplan (hserver plan hplan) hline).mpr (hcomparable plan hplan line hline)
    exact ⟨hlines, fun callId call record => differingLines_eq hactive hlines callId call record⟩

end Differences

/-- The sample plan without a declared quantity. -/
def Sample.undeclared : MeasurementPlan :=
  { Sample.plan with lines := [{ Sample.cargoLine with manifestQuantity := none }] }

theorem Sample.serverReturns_undeclared : ServerReturns Sample.undeclared :=
  ⟨⟨⟨by decide +kernel, by decide +kernel⟩, by decide +kernel, by decide +kernel,
    by decide +kernel⟩, by decide +kernel, by decide +kernel⟩

/-- A reading of an undeclared line counts as a difference on the dashboard alone. -/
theorem undeclared_line_counted : ServerReturns Sample.undeclared ∧
    Sample.undeclared.status ≠ .cancelled ∧
    ¬CountsAlike ⟨fun a b => decide (a ≤ b), String.toLower⟩ Sample.runtime
      [Sample.undeclared] := by
  refine ⟨Sample.serverReturns_undeclared, by decide, fun h => ?_⟩
  have hline := h.1 Sample.undeclared (by simp) { Sample.cargoLine with manifestQuantity := none }
    (by decide)
  revert hline
  decide +kernel

theorem differences_counted_sample :
    CountsAlike ⟨fun a b => decide (a ≤ b), String.toLower⟩ Sample.runtime [Sample.measured] ↔
      Comparable [Sample.measured] := by
  refine differences_counted _ _ (fun plan hplan => ?_) fun plan hplan => ?_
  · rw [List.mem_singleton.mp hplan]
    exact ⟨⟨⟨by decide +kernel, by decide +kernel⟩, by decide +kernel, by decide +kernel,
      by decide +kernel⟩, by decide +kernel, by decide +kernel⟩
  · rw [List.mem_singleton.mp hplan]
    decide

end VesselCaller.Closeout
