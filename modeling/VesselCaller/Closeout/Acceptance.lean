import VesselCaller.Closeout.MakerChecker

/-!
# When a submission or a draft is accepted

What `submitReport` and `draftInvoice` ask of their arguments, and what they come to where
it is met: the latest report or invoice again, if it says the same, and a new one otherwise.

* `Submittable`, `Billable` — what is asked of the arguments, apart from the record;
* `repeatedReport`, `repeatedInvoice` — the latest one, where it says the same;
* `SaysEntry` — a row of a report says what is entered for its cargo line;
* `submitReport_cases`, `draftInvoice_cases` — what an accepted call comes to.
-/

namespace VesselCaller.Closeout

open Lib

/-- A change whose answer is wrapped. -/
theorem map_eq_ok_iff {A B : Type} {x : Except String (A × CloseoutRecord)} {f : A → B} {b : B}
    {after : CloseoutRecord} :
    x.map (Prod.map f id) = .ok (b, after) ↔ ∃ a, x = .ok (a, after) ∧ f a = b := by
  cases x with
  | error message =>
      constructor
      · intro h
        cases h
      · rintro ⟨a, h, -⟩
        cases h
  | ok result =>
      constructor
      · intro h
        cases h
        exact ⟨result.1, rfl, rfl⟩
      · rintro ⟨a, h, rfl⟩
        cases h
        rfl

/-! ## Submissions -/

/-- The cargo lines of sheets, each with its sheet. -/
def sourceLines (sheets : List MeasurementPlan) : List (MeasurementPlan × CargoLine) :=
  sheets.flatMap fun plan => plan.lines.map (plan, ·)

/-- The sheets are complete and of the voyage, and the input has a note and one entry for
each of their lines, from which the lines of the report are made. -/
structure Submittable (rt : Runtime) (callId : String) (plans : List MeasurementPlan)
    (input : ReportInput) (lines : List PreviewReportLine) : Prop where
  complete : reconciliationIssues rt (activePlans rt plans) = []
  voyage : ∀ plan ∈ activePlans rt plans, plan.callId = callId
  note : trim input.reason ≠ ""
  length : input.lines.length = (sourceLines (activePlans rt plans)).length
  keys : (input.lines.map fun line => lineKey line.planId line.lineId).Nodup
  lines : (sourceLines (activePlans rt plans)).mapM (submittedLine input) = .ok lines

/-- A row of a report says of a cargo line of the sheets what the input enters for it. -/
structure SaysEntry (input : ReportInput) (source : MeasurementPlan × CargoLine)
    (row : PreviewReportLine) : Prop where
  planId : row.planId = source.1.id
  lineId : row.lineId = source.2.id
  description : row.description = source.2.description
  unit : row.unit = source.2.unit
  declared : row.declaredQuantity = source.2.manifestQuantity
  entered : ∃ entry ∈ input.lines, entry.planId = source.1.id ∧ entry.lineId = source.2.id ∧
    row.quantity = entry.quantity ∧ row.reason = trim entry.reason

/-- The latest report, where it waits for review and says what is submitted. -/
def repeatedReport (rt : Runtime) (saved : CloseoutRecord) (plans : List MeasurementPlan)
    (input : ReportInput) (lines : List PreviewReportLine) : Option PreviewReport :=
  saved.reports.getLast?.filter fun previous =>
    sameReport previous (voyageInputFingerprint rt (activePlans rt plans)) (trim input.reason)
      lines

/-- The version a submission adds. -/
def submittedReportOf (rt : Runtime) (moment : Moment) (callId : String) (saved : CloseoutRecord)
    (plans : List MeasurementPlan) (input : ReportInput) (lines : List PreviewReportLine)
    (actor : Actor) : PreviewReport :=
  newReport rt moment callId saved (activePlans rt plans) (trim input.reason) lines actor

/-- The row of a report that is made for a cargo line says what is entered for it. -/
theorem saysEntry_of_submittedLine {input : ReportInput} {source : MeasurementPlan × CargoLine}
    {row : PreviewReportLine} (h : submittedLine input source = .ok row) :
    SaysEntry input source row := by
  unfold submittedLine at h
  obtain ⟨entry, hentry, h⟩ := bind_eq_ok.mp h
  obtain ⟨_, _, h⟩ := bind_eq_ok.mp h
  obtain ⟨_, _, h⟩ := bind_eq_ok.mp h
  obtain ⟨_, _, h⟩ := bind_eq_ok.mp h
  rw [orRaise_eq_ok] at hentry
  have hkeys := List.find?_some hentry
  simp only [Bool.and_eq_true, decide_eq_true_eq] at hkeys
  cases h
  exact ⟨hkeys.1, hkeys.2, rfl, rfl, rfl, entry, List.mem_of_find?_eq_some hentry, hkeys.1,
    hkeys.2, rfl, rfl⟩

/-- A list whose distinct elements are as many as the list is long has none twice. -/
theorem length_dedup_eq_iff {α : Type} [DecidableEq α] {xs : List α} :
    xs.dedup.length = xs.length ↔ xs.Nodup := by
  constructor
  · intro h
    have hsame : xs.dedup = xs := (List.dedup_sublist xs).eq_of_length h
    rw [← hsame]
    exact List.nodup_dedup xs
  · intro h
    rw [h.dedup]

section Submissions

variable {rt : Runtime} {moment : Moment} {saved after : CloseoutRecord} {actor : Actor}
  {callId : String} {plans : List MeasurementPlan} {input : ReportInput}
  {lines : List PreviewReportLine} {report : PreviewReport}

/-- A submission that can be accepted is. -/
theorem submitReport_of_submittable (h : Submittable rt callId plans input lines) :
    submitReport rt moment callId plans input actor saved =
      .ok (((repeatedReport rt saved plans input lines).map (·, saved)).getD
        (submittedReportOf rt moment callId saved plans input lines actor,
          pushReport moment callId saved
            (submittedReportOf rt moment callId saved plans input lines actor) actor)) := by
  have hlines := h.lines
  have hissues : (reconciliationIssues rt (activePlans rt plans) ++
      if (activePlans rt plans).any (·.callId ≠ callId) then
        ["The report contains another voyage."] else []).head? = none := by
    have hvoyage : ¬(activePlans rt plans).any (·.callId ≠ callId) = true := by
      simpa using h.voyage
    rw [h.complete, if_neg hvoyage]
    rfl
  have hcount : ¬(input.lines.length ≠ (sourceLines (activePlans rt plans)).length ∨
      (input.lines.map fun line => lineKey line.planId line.lineId).dedup.length ≠
        (sourceLines (activePlans rt plans)).length) := by
    rw [not_or, not_not, not_not, ← h.length]
    refine ⟨rfl, ?_⟩
    rw [length_dedup_eq_iff.mpr h.keys, List.length_map]
  unfold submitReport
  unfold sourceLines at hlines hcount
  dsimp only
  rw [(raiseSome_eq_ok (r := ⟨⟩)).mpr hissues, ok_bind, raiseIf_of_not h.note, ok_bind,
    raiseIf_of_not hcount, ok_bind, hlines, ok_bind]
  split
  · rename_i previous hprevious
    have hrepeated : repeatedReport rt saved plans input lines = some previous := hprevious
    rw [hrepeated]
    rfl
  · rename_i hprevious
    have hrepeated : repeatedReport rt saved plans input lines = none := hprevious
    rw [hrepeated]
    rfl

/-- An accepted submission could be accepted. -/
theorem submittable_of_submitReport
    (h : submitReport rt moment callId plans input actor saved = .ok (report, after)) :
    ∃ lines, Submittable rt callId plans input lines := by
  obtain ⟨hissues, hvoyage, lines, hlines, -⟩ := submitReport_eq_ok h
  unfold submitReport at h
  obtain ⟨_, _, h⟩ := bind_eq_ok.mp h
  obtain ⟨_, hnote, h⟩ := bind_eq_ok.mp h
  obtain ⟨_, hcount, -⟩ := bind_eq_ok.mp h
  rw [raiseIf_eq_ok] at hnote
  rw [raiseIf_eq_ok, not_or, not_not, not_not] at hcount
  refine ⟨lines, hissues, hvoyage, hnote, hcount.1, length_dedup_eq_iff.mp ?_, hlines⟩
  rw [List.length_map]
  exact hcount.2.trans hcount.1.symm

/-- What an accepted submission comes to. -/
theorem submitReport_cases
    (h : submitReport rt moment callId plans input actor saved = .ok (report, after)) :
    ∃ lines, Submittable rt callId plans input lines ∧
      (repeatedReport rt saved plans input lines = some report ∧ after = saved ∨
        repeatedReport rt saved plans input lines = none ∧
          report = submittedReportOf rt moment callId saved plans input lines actor ∧
          after = pushReport moment callId saved report actor) := by
  obtain ⟨lines, hlines⟩ := submittable_of_submitReport h
  refine ⟨lines, hlines, ?_⟩
  rw [submitReport_of_submittable hlines] at h
  cases hrepeated : repeatedReport rt saved plans input lines with
  | some previous =>
      rw [hrepeated] at h
      cases h
      exact .inl ⟨rfl, rfl⟩
  | none =>
      rw [hrepeated] at h
      cases h
      exact .inr ⟨rfl, rfl, rfl⟩

theorem repeatedReport_eq_some : repeatedReport rt saved plans input lines = some report ↔
    saved.reports.getLast? = some report ∧ reportStatus report = .submitted ∧
      report.sourceFingerprint = voyageInputFingerprint rt (activePlans rt plans) ∧
      report.reason = trim input.reason ∧ report.lines = lines := by
  rw [repeatedReport, Option.filter_eq_some_iff]
  simp only [sameReport, Bool.and_eq_true, decide_eq_true_eq, and_assoc]

end Submissions

/-! ## Drafts -/

/-- The input names what an invoice has to name, its calculation has no issues, and what it
charges can be charged. -/
structure Billable (report : PreviewReport) (input : PreviewInvoiceInput) : Prop where
  names : trim input.payer ≠ "" ∧ trim input.originalInvoiceReference ≠ "" ∧
    trim input.tariffReference ≠ ""
  paidAmount : input.originalPaidAmount = "" ∨
    (decimal (some input.originalPaidAmount) 2 15).isSome = true
  currency : input.currency ∈ currencies
  issues : (calculateVariation report.lines input.lines).issues = []
  paid : (calculateVariation report.lines input.lines).status = .draft →
    input.paymentStatus = .paid
  previous : (∃ line ∈ input.lines,
      0 < (decimal (some line.previousVariationAmount) 2 15).getD 0) →
    trim input.previousVariationReference ≠ ""

/-- The latest invoice, where it says what is asked for. -/
def repeatedInvoice (saved : CloseoutRecord) (report : PreviewReport)
    (input : PreviewInvoiceInput) : Option PreviewInvoice :=
  saved.invoices.getLast?.filter fun latest =>
    sameInput latest report input (calculateVariation report.lines input.lines)

section Drafts

variable {rt : Runtime} {moment : Moment} {saved after : CloseoutRecord} {actor : Actor}
  {report : PreviewReport} {input : PreviewInvoiceInput} {invoice : PreviewInvoice}

/-- An input that can be billed is. -/
theorem draftInvoice_of_billable (h : Billable report input) :
    draftInvoice rt moment saved report input actor =
      .ok (((repeatedInvoice saved report input).map (·, saved)).getD
        (newInvoice rt moment saved report input actor,
          pushInvoice moment saved (newInvoice rt moment saved report input actor) actor)) := by
  have hnames : ¬(trim input.payer = "" ∨ trim input.originalInvoiceReference = "" ∨
      trim input.tariffReference = "") := by
    rw [not_or, not_or]
    exact h.names
  have hpaidAmount : ¬(input.originalPaidAmount ≠ "" ∧
      decimal (some input.originalPaidAmount) 2 15 = none) := by
    rintro ⟨hne, hnone⟩
    rcases h.paidAmount with hblank | hsome
    · exact hne hblank
    · rw [hnone] at hsome
      cases hsome
  have hpaid : ¬((calculateVariation report.lines input.lines).status = .draft ∧
      input.paymentStatus ≠ .paid) := fun hdraft => hdraft.2 (h.paid hdraft.1)
  have hprevious : ¬((input.lines.any fun line =>
      0 < (decimal (some line.previousVariationAmount) 2 15).getD 0) = true ∧
      trim input.previousVariationReference = "") := by
    rintro ⟨hsome, hblank⟩
    exact h.previous (by simpa using hsome) hblank
  have hissues : (calculateVariation report.lines input.lines).issues.head? = none := by
    rw [h.issues]
    rfl
  -- The six guards, in the order of the source.
  unfold draftInvoice
  dsimp only
  rw [raiseIf_of_not hnames, ok_bind, raiseIf_of_not hpaidAmount, ok_bind,
    raiseIf_of_not (not_not.mpr h.currency), ok_bind, (raiseSome_eq_ok (r := ⟨⟩)).mpr hissues, ok_bind,
    raiseIf_of_not hpaid, ok_bind, raiseIf_of_not hprevious, ok_bind]
  split
  · rename_i latest hlatest
    have hrepeated : repeatedInvoice saved report input = some latest := hlatest
    rw [hrepeated]
    rfl
  · rename_i hlatest
    have hrepeated : repeatedInvoice saved report input = none := hlatest
    rw [hrepeated]
    rfl

/-- An input that is billed could be. -/
theorem billable_of_draftInvoice
    (h : draftInvoice rt moment saved report input actor = .ok (invoice, after)) :
    Billable report input := by
  obtain ⟨hpaidAmount, hcurrency, hissues, -⟩ := draftInvoice_eq_ok h
  unfold draftInvoice at h
  obtain ⟨_, hnames, h⟩ := bind_eq_ok.mp h
  obtain ⟨_, _, h⟩ := bind_eq_ok.mp h
  obtain ⟨_, _, h⟩ := bind_eq_ok.mp h
  obtain ⟨_, _, h⟩ := bind_eq_ok.mp h
  obtain ⟨_, hpaid, h⟩ := bind_eq_ok.mp h
  obtain ⟨_, hprevious, -⟩ := bind_eq_ok.mp h
  rw [raiseIf_eq_ok] at hnames hpaid hprevious
  rw [not_or, not_or] at hnames
  refine ⟨hnames, hpaidAmount, hcurrency, hissues, fun hdraft => ?_, fun hline hblank => ?_⟩
  · by_contra hunpaid
    exact hpaid ⟨hdraft, hunpaid⟩
  · exact hprevious ⟨by simpa using hline, hblank⟩

/-- What an accepted draft comes to. -/
theorem draftInvoice_cases
    (h : draftInvoice rt moment saved report input actor = .ok (invoice, after)) :
    Billable report input ∧
      (repeatedInvoice saved report input = some invoice ∧ after = saved ∨
        repeatedInvoice saved report input = none ∧
          invoice = newInvoice rt moment saved report input actor ∧
          after = pushInvoice moment saved invoice actor) := by
  have hbillable := billable_of_draftInvoice h
  refine ⟨hbillable, ?_⟩
  rw [draftInvoice_of_billable hbillable] at h
  cases hrepeated : repeatedInvoice saved report input with
  | some latest =>
      rw [hrepeated] at h
      cases h
      exact .inl ⟨rfl, rfl⟩
  | none =>
      rw [hrepeated] at h
      cases h
      exact .inr ⟨rfl, rfl, rfl⟩

theorem repeatedInvoice_eq_some : repeatedInvoice saved report input = some invoice ↔
    saved.invoices.getLast? = some invoice ∧ invoice.reportId = report.id ∧
      invoice.toPreviewInvoiceTerms =
        { input.toPreviewInvoiceTerms with payer := trim input.payer } ∧
      invoice.lines = (calculateVariation report.lines input.lines).lines := by
  rw [repeatedInvoice, Option.filter_eq_some_iff]
  simp only [sameInput, Bool.and_eq_true, decide_eq_true_eq, and_assoc]

end Drafts

end VesselCaller.Closeout
