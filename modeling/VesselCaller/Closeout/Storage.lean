import VesselCaller.Closeout.MakerChecker

/-!
# What is written is read again

A call writes the whole storage item of an organization, and the next call refuses to work
with an item that one of the validators rejects; a single bad number would lock all previews.
`storage_readable` says that no successful call writes such an item.

The two sides check different things.  The writer accepts quantities of three decimals and
multiplies them with rates; the reader wants every quantity, variance and amount within a
number of digits.  The bounds of `Closeout.Calculation` bring them together, and the last one
of them, on the total, is where the limit of a hundred cargo lines is needed.

## Main definitions

* `ServerPlan`, `QuantitiesRead` — plans as the server emits them, and quantities that are
  read;
* `WithinLimits`, `ReportsWithin` — the limits of what is stored.
-/

namespace VesselCaller.Closeout

open Lib

/-! ## Plans within the limits of the server -/

/-- A plan as the server emits it: the quantities of its returns print decimals of three
places within their column. -/
def ServerPlan (plan : MeasurementPlan) : Prop :=
  ∀ submission ∈ plan.submissions, ∀ line ∈ submission.lines,
    line.quantity = none ∨ ∃ n : ℕ, n < 10 ^ 18 ∧ line.quantity = some (fixed n 3)

/-- Plans as the server emits them, with at most a hundred cargo lines in all sheets. -/
structure WithinLimits (rt : Runtime) (plans : List MeasurementPlan) : Prop where
  server : ∀ plan ∈ plans, ServerPlan plan
  lines : ((activePlans rt plans).flatMap MeasurementPlan.lines).length ≤ 100

/-- No report of the record has more than a hundred lines. -/
def ReportsWithin (record : CloseoutRecord) : Prop :=
  ∀ report ∈ record.reports, report.lines.length ≤ 100

theorem mem_activePlans {rt : Runtime} {plans : List MeasurementPlan} {plan : MeasurementPlan} :
    plan ∈ activePlans rt plans ↔ plan ∈ plans ∧ plan.status ≠ .cancelled := by
  rw [activePlans, List.mem_insertionSort, List.mem_filter, decide_eq_true_eq]

/-! ## Lines -/

theorem isSome_of_eq_some {α : Type} {o : Option α} {a : α} (h : o = some a) :
    o.isSome = true := by
  rw [h, Option.isSome_some]

theorem validMoney_fixed {n : ℕ} (h : n < 10 ^ 34) : validMoney (fixed n 2) = true :=
  isSome_of_eq_some (decimal_fixed (by decide) (by decide) h)

/-- Every line that is calculated is a valid line. -/
theorem validInvoiceLine_of_figures {row : PreviewReportLine} {input : PreviewInvoiceLineInput}
    {f : LineFigures} (h : lineFigures row input = some f) :
    validInvoiceLine (invoiceLine row input f) = true := by
  obtain ⟨hbaseline, hfinal, hrate, hprevious⟩ := lineFigures_eq_some.mp h
  have hdeclared : some (row.declaredQuantity.getD "") = row.declaredQuantity := by
    cases hd : row.declaredQuantity with
    | none =>
        rw [hd] at hbaseline
        cases hbaseline
    | some text => rfl
  have hentitlement : f.entitlement < 10 ^ 34 :=
    (LineFigures.entitlement_lt h).trans (by norm_num)
  have hamount : f.amount < 10 ^ 34 := LineFigures.amount_le_entitlement.trans_lt hentitlement
  have hvariance := decimal_quantityText (LineFigures.natAbs_variance_lt h)
  simp only [validInvoiceLine, invoiceLine, Bool.and_eq_true]
  refine ⟨⟨⟨⟨⟨⟨?_, isSome_of_eq_some hfinal⟩, isSome_of_eq_some hvariance⟩,
    isSome_of_eq_some hrate⟩, isSome_of_eq_some hprevious⟩, validMoney_fixed hamount⟩,
    validMoney_fixed hentitlement⟩
  rw [hdeclared]
  exact isSome_of_eq_some hbaseline

theorem validInvoiceLine_of_mem {rows : List PreviewReportLine}
    {inputs : List PreviewInvoiceLineInput} {line : PreviewInvoiceLine}
    (h : line ∈ (calculateVariation rows inputs).lines) : validInvoiceLine line = true := by
  obtain ⟨charge, hcharge, rfl⟩ := List.mem_map.mp h
  obtain ⟨row, -, hline⟩ := mem_chargesOf.mp hcharge
  obtain ⟨input, f, -, hf, rfl⟩ := calculateLine_eq_ok.mp hline
  exact validInvoiceLine_of_figures hf

/-- The total can be read again where the lines are as few as the digits of the rates are
many. -/
theorem validMoney_total_of_rates {d : ℕ} {rows : List PreviewReportLine}
    {inputs : List PreviewInvoiceLineInput} (hd : d ≤ 17) (h : rows.length ≤ 10 ^ (17 - d))
    (hrates : ∀ row ∈ rows, ∀ input ∈ inputs, ∀ f, lineFigures row input = some f →
      f.rate < 10 ^ (d + 4)) :
    validMoney (calculateVariation rows inputs).total = true := by
  unfold calculateVariation
  dsimp only
  split
  · decide
  · exact validMoney_fixed (sum_amounts_lt hd h hrates)

/-- The total of at most a hundred lines can be read again. -/
theorem validMoney_total {rows : List PreviewReportLine} (h : rows.length ≤ 100)
    (inputs : List PreviewInvoiceLineInput) :
    validMoney (calculateVariation rows inputs).total = true := by
  have hdigits : rows.length ≤ 10 ^ (17 - 15) := h
  refine validMoney_total_of_rates (by decide) hdigits fun row _ input _ f hf => ?_
  exact decimal_lt (lineFigures_eq_some.mp hf).2.2.1

/-- A line that is submitted is a valid line, where its declaration is a quantity. -/
theorem validReportLine_of_submitted {input : ReportInput} {source : MeasurementPlan × CargoLine}
    {line : PreviewReportLine} (h : submittedLine input source = .ok line)
    (hdeclared : (decimal source.2.manifestQuantity 6 15).isSome = true) :
    validReportLine line = true := by
  unfold submittedLine at h
  obtain ⟨entry, -, h⟩ := bind_eq_ok.mp h
  obtain ⟨value, hvalue, h⟩ := bind_eq_ok.mp h
  obtain ⟨_, -, h⟩ := bind_eq_ok.mp h
  obtain ⟨_, -, h⟩ := bind_eq_ok.mp h
  rw [orRaise_eq_ok] at hvalue
  cases h
  rw [validReportLine, Bool.and_eq_true]
  exact ⟨isSome_of_eq_some (decimal_of_le hvalue (by decide)), hdeclared⟩

/-! ## Reports -/

theorem reconciliationIssues_eq_nil_iff {rt : Runtime} {plans : List MeasurementPlan} :
    reconciliationIssues rt plans = [] ↔
      activePlans rt plans ≠ [] ∧ ∀ plan ∈ activePlans rt plans, planIssues plan = [] := by
  unfold reconciliationIssues
  split
  · rename_i hnone
    simp [hnone]
  · rename_i hsome
    rw [List.flatMap_eq_nil_iff, and_iff_right hsome]

/-- The active plans have no issues where the plans have none. -/
theorem reconciliationIssues_active {rt : Runtime} {plans : List MeasurementPlan} :
    reconciliationIssues rt (activePlans rt plans) = [] ↔ reconciliationIssues rt plans = [] := by
  have hmem : ∀ plan, plan ∈ activePlans rt (activePlans rt plans) ↔ plan ∈ activePlans rt plans :=
    fun plan => mem_activePlans.trans (and_iff_left_of_imp fun h => (mem_activePlans.mp h).2)
  rw [reconciliationIssues_eq_nil_iff, reconciliationIssues_eq_nil_iff, ne_eq, ne_eq,
    List.eq_nil_iff_forall_not_mem, List.eq_nil_iff_forall_not_mem]
  simp only [hmem]

/-- Complete sheets have declared quantities. -/
theorem isSome_manifestQuantity {rt : Runtime} {plans : List MeasurementPlan}
    (h : reconciliationIssues rt (activePlans rt plans) = []) {plan : MeasurementPlan}
    (hplan : plan ∈ activePlans rt plans) {line : CargoLine} (hline : line ∈ plan.lines) :
    (decimal line.manifestQuantity 6 15).isSome = true := by
  obtain ⟨-, hall⟩ := reconciliationIssues_eq_nil_iff.mp (reconciliationIssues_active.mp h)
  have hissues := hall plan hplan
  unfold planIssues at hissues
  rw [List.append_eq_nil_iff, List.append_eq_nil_iff, List.map_eq_nil_iff,
    List.filter_eq_nil_iff] at hissues
  rw [Option.isSome_iff_ne_none]
  simpa using hissues.1.2 line hline

/-- Every quantity of the returns of a plan is one the validators read. -/
def QuantitiesRead (plan : MeasurementPlan) : Prop :=
  ∀ submission ∈ plan.submissions, ∀ line ∈ submission.lines,
    line.quantity = none ∨ (decimal line.quantity 6 15).isSome = true

theorem quantitiesRead_of_server {plan : MeasurementPlan} (hserver : ServerPlan plan) :
    QuantitiesRead plan := by
  intro submission hsubmission line hline
  refine (hserver submission hsubmission line hline).imp_right ?_
  rintro ⟨n, hn, hquantity⟩
  have hread : decimal (some (fixed n 3)) 3 15 = some n :=
    decimal_fixed (by decide) (by decide) hn
  rw [hquantity]
  exact isSome_of_eq_some (decimal_of_le hread (by decide))

theorem validSourcePlan_iff {plan : MeasurementPlan} {callId : String} :
    validSourcePlan plan callId = true ↔ plan.callId = callId ∧
      (∀ line ∈ plan.lines, (decimal line.manifestQuantity 6 15).isSome = true) ∧
      QuantitiesRead plan := by
  simp only [validSourcePlan, QuantitiesRead, Bool.and_eq_true, List.all_eq_true,
    decide_eq_true_eq, Bool.or_eq_true, and_assoc]

theorem validReport_iff {report : PreviewReport} {callId : String} :
    validReport report callId = true ↔ report.callId = callId ∧
      (report.status = none ∨ report.preparedAt.isSome = true ∧ report.preparedBy.isSome = true) ∧
      (reportStatus report = .approved →
        report.approvedAt.isSome = true ∧ report.approvedBy.isSome = true) ∧
      (reportStatus report = .returned → report.returnedAt.isSome = true ∧
        report.returnedBy.isSome = true ∧ report.returnComment.isSome = true) ∧
      (∀ line ∈ report.lines, validReportLine line = true) ∧
      ∀ plan ∈ report.sourcePlans, validSourcePlan plan callId = true := by
  simp only [validReport, Bool.and_eq_true, Bool.or_eq_true, decide_eq_true_eq,
    List.all_eq_true, and_assoc, ne_eq, ← imp_iff_not_or]

/-- A submitted report is valid where the quantities of its sheets are read. -/
theorem validReport_newReport {rt : Runtime} {moment : Moment} {callId : String}
    {saved : CloseoutRecord} {plans : List MeasurementPlan} {input : ReportInput}
    {lines : List PreviewReportLine} {actor : Actor} {reason : String}
    (hissues : reconciliationIssues rt (activePlans rt plans) = [])
    (hcall : ∀ plan ∈ activePlans rt plans, plan.callId = callId)
    (hlines : ((activePlans rt plans).flatMap fun plan => plan.lines.map (plan, ·)).mapM
      (submittedLine input) = .ok lines) :
    validReport (newReport rt moment callId saved (activePlans rt plans) reason lines actor)
      callId = true ↔ ∀ plan ∈ activePlans rt plans, QuantitiesRead plan := by
  have hreportLines : ∀ line ∈ lines, validReportLine line = true := by
    intro line hline
    obtain ⟨source, hsource, hsubmitted⟩ := mem_of_mapM_eq_ok hlines line hline
    obtain ⟨plan, hplan, hmem⟩ := List.mem_flatMap.mp hsource
    obtain ⟨cargo, hcargo, rfl⟩ := List.mem_map.mp hmem
    exact validReportLine_of_submitted hsubmitted (isSome_manifestQuantity hissues hplan hcargo)
  have hsource : ∀ plan ∈ activePlans rt plans,
      (validSourcePlan plan callId = true ↔ QuantitiesRead plan) := by
    intro plan hplan
    rw [validSourcePlan_iff, and_iff_right (hcall plan hplan),
      and_iff_right fun line hline => isSome_manifestQuantity hissues hplan hline]
  rw [validReport_iff, ← forall₂_congr hsource]
  refine ⟨fun h => h.2.2.2.2.2, fun h => ⟨rfl, .inr ⟨rfl, rfl⟩, ?_, ?_, hreportLines, h⟩⟩
  · exact fun happroved => by cases happroved
  · exact fun hreturned => by cases hreturned

/-- A review leaves a report valid. -/
theorem validReport_approvedBy {moment : Moment} {report : PreviewReport} {actor : Actor}
    {callId : String} (hwaiting : report.status = some .submitted)
    (h : validReport report callId = true) :
    validReport (approvedBy moment report actor) callId = true := by
  obtain ⟨hcall, hprepared, -, -, hlines, hsources⟩ := validReport_iff.mp h
  have hpreparer : report.preparedAt.isSome = true ∧ report.preparedBy.isSome = true :=
    hprepared.resolve_left (by simp [hwaiting])
  exact validReport_iff.mpr
    ⟨hcall, .inr hpreparer, fun _ => ⟨rfl, rfl⟩, fun hreturned => (by cases hreturned), hlines,
      hsources⟩

theorem validReport_returnedBy {moment : Moment} {report : PreviewReport} {actor : Actor}
    {callId comment : String} (hwaiting : report.status = some .submitted)
    (h : validReport report callId = true) :
    validReport (returnedBy moment report actor comment) callId = true := by
  obtain ⟨hcall, hprepared, -, -, hlines, hsources⟩ := validReport_iff.mp h
  have hpreparer : report.preparedAt.isSome = true ∧ report.preparedBy.isSome = true :=
    hprepared.resolve_left (by simp [hwaiting])
  exact validReport_iff.mpr
    ⟨hcall, .inr hpreparer, fun happroved => (by cases happroved), fun _ => ⟨rfl, rfl, rfl⟩,
      hlines, hsources⟩

/-! ## Records -/

/-- A valid record with changes that are valid is valid; its reports keep their keys, so that
the invoices still find theirs. -/
theorem validRecord_of_changes {saved after : CloseoutRecord} (h : validRecord saved = true)
    (hcall : after.callId = saved.callId)
    (hreports : ∀ report ∈ after.reports,
      report ∈ saved.reports ∨ validReport report saved.callId = true)
    (hkeys : ∀ report ∈ saved.reports, ∃ report' ∈ after.reports, report'.id = report.id)
    (hinvoices : ∀ invoice ∈ after.invoices,
      invoice ∈ saved.invoices ∨ validInvoice after invoice = true)
    (hevents : ∀ event ∈ after.events, event ∈ saved.events ∨ event.callId = saved.callId)
    (hdeclaration : validDeclaration after.declaration = true) : validRecord after = true := by
  obtain ⟨hne, hsavedReports, hsavedInvoices, hsavedEvents, -⟩ := validRecord_iff.mp h
  refine validRecord_iff.mpr ⟨hcall ▸ hne, ?_, ?_, ?_, hdeclaration⟩
  · intro report hreport
    rw [hcall]
    exact (hreports report hreport).elim (hsavedReports report) id
  · intro invoice hinvoice
    refine (hinvoices invoice hinvoice).elim (fun hold => ?_) id
    have hvalid := hsavedInvoices invoice hold
    simp only [validInvoice, Bool.and_eq_true, List.any_eq_true, decide_eq_true_eq] at hvalid ⊢
    obtain ⟨⟨⟨⟨⟨hid, report, hreport, hkey⟩, hcurrency⟩, htotal⟩, hpaid⟩, hlines⟩ := hvalid
    obtain ⟨report', hreport', hkey'⟩ := hkeys report hreport
    exact ⟨⟨⟨⟨⟨hid.trans hcall.symm, report', hreport', hkey'.trans hkey⟩, hcurrency⟩, htotal⟩,
      hpaid⟩, hlines⟩
  · intro event hevent
    rw [hcall]
    exact (hevents event hevent).elim (hsavedEvents event) id

/-- An empty record is valid. -/
theorem validRecord_empty {callId : String} (h : callId ≠ "") : validRecord
    { callId := callId, reports := [], invoices := [], events := [], declaration := none } = true :=
  validRecord_iff.mpr ⟨h, by simp, by simp, by simp, rfl⟩

section Changes

variable {rt : Runtime} {moment : Moment} {saved after : CloseoutRecord} {actor : Actor}

/-- A draft for a report of the record leaves the record valid. -/
theorem validRecord_draftInvoice {report : PreviewReport} {input : PreviewInvoiceInput}
    {invoice : PreviewInvoice} (hsaved : validRecord saved = true)
    (hreport : report ∈ saved.reports)
    (htotal : validMoney (calculateVariation report.lines input.lines).total = true)
    (h : draftInvoice rt moment saved report input actor = .ok (invoice, after)) :
    validRecord after = true := by
  obtain ⟨hpaid, hcurrency, -, rfl | ⟨rfl, rfl⟩⟩ := draftInvoice_eq_ok h
  · exact hsaved
  refine validRecord_of_changes hsaved rfl (fun _ hmem => .inl hmem)
    (fun report hmem => ⟨report, hmem, rfl⟩) ?_ ?_ (validRecord_iff.mp hsaved).2.2.2.2
  · intro other hother
    obtain hold | hnew := List.mem_append.mp hother
    · exact .inl hold
    · right
      rw [List.mem_singleton.mp hnew]
      simp only [validInvoice, Bool.and_eq_true, List.any_eq_true, decide_eq_true_eq,
        Bool.or_eq_true, List.all_eq_true]
      exact ⟨⟨⟨⟨⟨rfl, report, hreport, rfl⟩, hcurrency⟩, htotal⟩, hpaid⟩,
        fun line hline => validInvoiceLine_of_mem hline⟩
  · intro event hevent
    obtain hold | hnew := List.mem_append.mp hevent
    · exact .inl hold
    · rw [List.mem_singleton.mp hnew]
      exact .inr rfl

/-- A valid report and its event leave the record valid. -/
theorem validRecord_pushReport {report : PreviewReport} (hsaved : validRecord saved = true)
    (hreport : validReport report saved.callId = true) :
    validRecord (pushReport moment saved.callId saved report actor) = true := by
  refine validRecord_of_changes hsaved rfl ?_
    (fun report hmem => ⟨report, List.mem_append_left _ hmem, rfl⟩)
    (fun _ hmem => .inl hmem) ?_ (validRecord_iff.mp hsaved).2.2.2.2
  · intro other hother
    obtain hold | hnew := List.mem_append.mp hother
    · exact .inl hold
    · rw [List.mem_singleton.mp hnew]
      exact .inr hreport
  · intro event hevent
    obtain hold | hnew := List.mem_append.mp hevent
    · exact .inl hold
    · rw [List.mem_singleton.mp hnew]
      exact .inr rfl

/-- The current report is one of the record, and matches the inputs. -/
theorem mem_of_currentReport {plans : List MeasurementPlan} {report : PreviewReport}
    (h : currentReport rt plans saved = some report) :
    report ∈ saved.reports ∧ matchesInputs rt report plans = true := by
  obtain ⟨hfound, hmatches⟩ := Option.filter_eq_some_iff.mp h
  exact ⟨List.mem_reverse.mp (List.mem_of_find?_eq_some hfound), hmatches⟩

/-- Settling the last report leaves the record valid. -/
theorem validRecord_settleReport {reportId : String} {report reviewed : PreviewReport}
    {action : PreviewEventAction} (hsaved : validRecord saved = true)
    (hreport : submittedReport saved reportId = some report) (hid : reviewed.id = report.id)
    (hreviewed : validReport reviewed saved.callId = true) :
    validRecord (settleReport moment saved saved.callId reviewed actor action) = true := by
  obtain ⟨hlast, -, -⟩ := reports_of_submittedReport hreport
  refine validRecord_of_changes hsaved rfl ?_ ?_ (fun _ hmem => .inl hmem) ?_
    (validRecord_iff.mp hsaved).2.2.2.2
  · intro other hother
    obtain hold | hnew := List.mem_append.mp hother
    · exact .inl (List.dropLast_subset _ hold)
    · rw [List.mem_singleton.mp hnew]
      exact .inr hreviewed
  · intro other hother
    rw [hlast] at hother
    obtain hold | hwas := List.mem_append.mp hother
    · exact ⟨other, List.mem_append_left _ hold, rfl⟩
    · rw [List.mem_singleton.mp hwas]
      exact ⟨reviewed, List.mem_append_right _ (List.mem_singleton_self _), hid⟩
  · intro event hevent
    obtain hold | hnew := List.mem_append.mp hevent
    · exact .inl hold
    · rw [List.mem_singleton.mp hnew]
      exact .inr rfl

/-- Settling the last report keeps the limit, where its lines stay. -/
theorem reportsWithin_settleReport {reportId callId : String} {report reviewed : PreviewReport}
    {action : PreviewEventAction} (hsaved : ReportsWithin saved)
    (hreport : submittedReport saved reportId = some report)
    (hlines : reviewed.lines = report.lines) :
    ReportsWithin (settleReport moment saved callId reviewed actor action) := by
  intro other hother
  obtain hold | hnew := List.mem_append.mp hother
  · exact hsaved other (List.dropLast_subset _ hold)
  · rw [List.mem_singleton.mp hnew, hlines]
    exact hsaved report (List.mem_of_getLast? (submittedReport_eq_some.mp hreport).1)

/-- A report has a line for every cargo line of its sheets. -/
theorem length_submittedLines {plans : List MeasurementPlan} {input : ReportInput}
    {lines : List PreviewReportLine}
    (h : (plans.flatMap fun plan => plan.lines.map (plan, ·)).mapM (submittedLine input) =
      .ok lines) : lines.length = (plans.flatMap MeasurementPlan.lines).length := by
  have hunits : lines.map (fun _ => ()) =
      (plans.flatMap fun plan => plan.lines.map (plan, ·)).map fun _ => () :=
    map_eq_of_mapM_eq_ok (fun _ _ _ => rfl) h
  have hlength := congrArg List.length hunits
  rw [List.length_map, List.length_map] at hlength
  rw [hlength, List.length_flatMap, List.length_flatMap]
  simp only [List.length_map]

/-- Every accepted change of a valid record within the limit is valid and within the limit. -/
theorem changeOf_valid {callId : String} {call : Call} {answer : Answer}
    (hsaved : validRecord saved = true) (hwithin : ReportsWithin saved)
    (hid : saved.callId = callId)
    (hplans : ∀ plans, call.plans = some plans → WithinLimits rt plans)
    (h : changeOf rt moment callId call saved = .ok (answer, after)) :
    validRecord after = true ∧ ReportsWithin after := by
  subst hid
  cases call with
  | saveDeclaration input actor =>
      obtain ⟨declaration, h⟩ := eq_ok_of_map_eq_ok h
      obtain ⟨rfl, hdeclaration⟩ := saveDeclaration_eq_ok h
      exact ⟨validRecord_of_changes hsaved rfl (fun _ hmem => .inl hmem)
        (fun report hmem => ⟨report, hmem, rfl⟩) (fun _ hmem => .inl hmem)
        (fun _ hmem => .inl hmem) hdeclaration, hwithin⟩
  | submitReport plans input actor =>
      obtain ⟨report, h⟩ := eq_ok_of_map_eq_ok h
      -- What a report takes over from the plans is within the limits of the plans.
      have hlimits := hplans plans rfl
      obtain ⟨hissues, hcall, lines, hlines, rfl | ⟨rfl, rfl⟩⟩ := submitReport_eq_ok h
      · exact ⟨hsaved, hwithin⟩
      have hvalid : validReport (newReport rt moment saved.callId saved (activePlans rt plans)
          (trim input.reason) lines actor) saved.callId = true :=
        (validReport_newReport hissues hcall hlines).mpr fun plan hplan =>
          quantitiesRead_of_server (hlimits.server plan (mem_activePlans.mp hplan).1)
      constructor
      · exact validRecord_pushReport hsaved hvalid
      · intro other hother
        obtain hold | hnew := List.mem_append.mp hother
        · exact hwithin other hold
        · rw [List.mem_singleton.mp hnew]
          exact (length_submittedLines hlines).trans_le hlimits.lines
  | approveReport plans reportId actor invoice =>
      obtain ⟨result, h⟩ := eq_ok_of_map_eq_ok h
      obtain ⟨report, hreport, -, -, hafter⟩ := approveReport_eq_ok h
      obtain ⟨hlast, -, hwaiting⟩ := reports_of_submittedReport hreport
      have hmem : report ∈ saved.reports :=
        List.mem_of_getLast? (submittedReport_eq_some.mp hreport).1
      have hvalid : validReport (approvedBy moment report actor) saved.callId = true :=
        validReport_approvedBy hwaiting ((validRecord_iff.mp hsaved).2.1 report hmem)
      -- The approval settles the report, and may draft an invoice for it at once.
      have hsettled : validRecord (settleReport moment saved saved.callId
          (approvedBy moment report actor) actor .reportApproved) = true :=
        validRecord_settleReport hsaved hreport rfl hvalid
      have hsettledWithin : ReportsWithin (settleReport moment saved saved.callId
          (approvedBy moment report actor) actor .reportApproved) :=
        reportsWithin_settleReport hwithin hreport rfl
      obtain rfl | ⟨input, drafted, hdraft⟩ := hafter
      · exact ⟨hsettled, hsettledWithin⟩
      · have hnew : approvedBy moment report actor ∈ (settleReport moment saved saved.callId
            (approvedBy moment report actor) actor .reportApproved).reports :=
          List.mem_append_right _ (List.mem_singleton_self _)
        refine ⟨validRecord_draftInvoice hsettled hnew
          (validMoney_total (hsettledWithin _ hnew) _) hdraft, ?_⟩
        intro other hother
        rw [(draftInvoice_frame hdraft).2.1] at hother
        exact hsettledWithin other hother
  | returnReport reportId actor comment =>
      obtain ⟨result, h⟩ := eq_ok_of_map_eq_ok h
      obtain ⟨report, hreport, rfl⟩ := returnReport_eq_ok h
      obtain ⟨hlast, -, hwaiting⟩ := reports_of_submittedReport hreport
      have hmem : report ∈ saved.reports :=
        List.mem_of_getLast? (submittedReport_eq_some.mp hreport).1
      have hvalid : validReport (returnedBy moment report actor comment) saved.callId = true :=
        validReport_returnedBy hwaiting ((validRecord_iff.mp hsaved).2.1 report hmem)
      exact ⟨validRecord_settleReport hsaved hreport rfl hvalid,
        reportsWithin_settleReport hwithin hreport rfl⟩
  | createInvoice plans reportId input actor =>
      obtain ⟨invoice, h⟩ := eq_ok_of_map_eq_ok h
      obtain ⟨report, hcurrent, -, hdraft⟩ := createInvoice_eq_ok h
      have hmem : report ∈ saved.reports := (mem_of_currentReport hcurrent).1
      refine ⟨validRecord_draftInvoice hsaved hmem (validMoney_total (hwithin report hmem) _)
        hdraft, ?_⟩
      intro other hother
      rw [(draftInvoice_frame hdraft).2.1] at hother
      exact hwithin other hother

end Changes

/-! ## The storage -/

/-- Valid previews are read as they are stored. -/
theorem readPreviews_of_stored {rt : Runtime} {orgId : Option String} {org key : String}
    {storage : LocalStorage} {data : StoredPreviews} (horg : orgId = some org)
    (hkey : closeoutStorageKey rt orgId = some key) (hdata : storage key = some (.previews data))
    (hvalid : data.valid org = true) : readPreviews rt orgId true storage =
      { key := some key, records := data.records, error := none } := by
  have hreadable : ¬(true = false) := by decide
  unfold readPreviews
  rw [hkey]
  simp only [if_neg hreadable, hdata, horg, Option.getD_some, parsePreviews, hvalid, if_true]

/-- With a valid record, what is written is valid. -/
theorem stored_valid {rt : Runtime} {storage after : LocalStorage} {r : Request}
    {answer : Answer} {org key : String} {updated : CloseoutRecord}
    (h : Written rt storage after r answer org key updated) (hvalid : validRecord updated = true) :
    StoredPreviews.valid org ⟨1, org, Table.renew updated (storage.saved key)⟩ = true := by
  -- The records that were there are valid and have different keys.
  have hold : (∀ record ∈ storage.saved key, validRecord record = true) ∧
      (Table.keys (storage.saved key)).Nodup := by
    obtain hnil | ⟨data, hdata, hall⟩ := h.stored
    · rw [hnil]
      exact ⟨by simp, List.nodup_nil⟩
    · have hsaved : storage.saved key = data.records := by
        rw [LocalStorage.saved, hdata]
      rw [hsaved]
      exact (StoredPreviews.valid_iff.mp hall).2.2
  refine StoredPreviews.valid_iff.mpr ⟨rfl, rfl, ?_, Table.nodup_keys_renew hold.2 updated⟩
  intro record hrecord
  obtain ⟨hmem, -⟩ | rfl := Table.mem_renew.mp hrecord
  · exact hold.1 record hmem
  · exact hvalid

/-- The record a successful call starts from is valid. -/
theorem Written.valid {rt : Runtime} {storage after : LocalStorage} {r : Request}
    {answer : Answer} {org key : String} {updated : CloseoutRecord}
    (h : Written rt storage after r answer org key updated) :
    validRecord (storage.record key r.callId) = true := by
  obtain hvalid | hempty := validRecord_of_stored h.stored
  · exact hvalid
  · rw [hempty]
    exact validRecord_empty h.call

/-- A successful call within the limits leaves an item that is read back as it was written,
and keeps within the limits. -/
theorem storage_readable (rt : Runtime) {storage after : LocalStorage} {r : Request}
    {answer : Answer} (hplans : ∀ plans, r.call.plans = some plans → WithinLimits rt plans)
    (hreports : ∀ key, closeoutStorageKey rt r.orgId = some key →
      ReportsWithin (storage.record key r.callId))
    (h : perform rt storage r = (after, .ok answer)) :
    ∃ key data, closeoutStorageKey rt r.orgId = some key ∧
      after key = some (.previews data) ∧
      readPreviews rt r.orgId true after =
        { key := some key, records := data.records, error := none } ∧
      ReportsWithin (after.record key r.callId) := by
  obtain ⟨org, key, updated, hwritten⟩ := written_of_perform h
  have hid : (storage.record key r.callId).callId = r.callId := recordOf_callId _ _
  obtain ⟨hvalid, hwithin⟩ := changeOf_valid hwritten.valid (hreports key hwritten.storageKey) hid hplans
    hwritten.change
  have hdata := stored_valid hwritten hvalid
  have hitem : after key = some (.previews
      ⟨1, org, Table.renew updated (storage.saved key)⟩) := by
    rw [hwritten.item]
    exact setItem_self _ _ _
  refine ⟨key, _, hwritten.storageKey, hitem,
    readPreviews_of_stored hwritten.orgId hwritten.storageKey hitem hdata, ?_⟩
  rw [hwritten.record]
  exact hwithin

/-- The last call of the sample writes what can be read. -/
theorem storage_readable_sample : ∃ key data,
    closeoutStorageKey Sample.runtime (some "org-1") = some key ∧
      (perform Sample.runtime Sample.submitted Sample.approval).1 key = some (.previews data) ∧
      readPreviews Sample.runtime (some "org-1") true
          (perform Sample.runtime Sample.submitted Sample.approval).1 =
        { key := some key, records := data.records, error := none } ∧
      ReportsWithin ((perform Sample.runtime Sample.submitted Sample.approval).1.record key
        "call-1") := by
  obtain ⟨answer, hanswer⟩ := isOk_iff.mp
    (show (perform Sample.runtime Sample.submitted Sample.approval).2.isOk = true by decide)
  refine storage_readable Sample.runtime ?_ ?_ (Prod.ext rfl hanswer)
  · rintro plans hplans
    cases hplans
    refine ⟨fun plan hplan => ?_, by decide⟩
    rw [List.mem_singleton.mp hplan]
    intro submission hsubmission line hline
    have hsame : line.quantity = some (fixed (112500 : ℕ) 3) := by
      rw [List.mem_singleton.mp hsubmission] at hline
      rw [List.mem_singleton.mp hline]
      decide
    exact .inr ⟨112500, by norm_num, hsame⟩
  · intro key hkey
    have hsample : closeoutStorageKey Sample.runtime (some "org-1") = some Sample.key := by decide
    rw [← Option.some.inj (hsample.symm.trans hkey)]
    unfold ReportsWithin
    decide

end VesselCaller.Closeout
