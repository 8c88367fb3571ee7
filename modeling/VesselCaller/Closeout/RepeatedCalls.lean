import VesselCaller.Closeout.Acceptance
import VesselCaller.Closeout.Storage

/-!
# Repeated calls

Submitting a report or creating an invoice a second time, with the same arguments up to the
space around the texts that are trimmed, returns what the first call returned and leaves the
storage as it is: what the first call wrote is the latest, and says what the second asks for.

The second call has to read what the first has written.  The validators accept it but for two
figures that the first call does not check: the quantities of the returns that a report takes
over, which are in order in the plans the server emits, and the total of an invoice.  The
total has too many digits only where the rates have many and the lines are many; the editor
and the tariff let rates of eleven digits pass, and with these a million lines can be charged.
What is asked of the arguments is `WithinDigits`.

* `Repeats`, `IsRepetition` — the same call again, up to what is trimmed;
* `SameAsLatest` — the input of a call, normalized, against that of the latest report or
  invoice, field by field;
* `repeated_calls` — the repetition, and what a call adds whose input is another;
* `bulk_draft_not_repeated` — a hundred and one lines with rates of fifteen digits.
-/

namespace VesselCaller.Closeout

open Lib

/-! ## The same arguments -/

def ReportLineInput.trimmed (line : ReportLineInput) : ReportLineInput :=
  { line with reason := trim line.reason }

def ReportInput.trimmed (input : ReportInput) : ReportInput where
  reason := trim input.reason
  lines := input.lines.map ReportLineInput.trimmed

def PreviewInvoiceInput.trimmed (input : PreviewInvoiceInput) : PreviewInvoiceInput :=
  { input with payer := trim input.payer }

/-- The same submission or creation, up to what is trimmed. -/
inductive Repeats : Call → Call → Prop
  | submitReport (plans : List MeasurementPlan) {input input' : ReportInput} (actor : Actor)
      (h : input.trimmed = input'.trimmed) :
      Repeats (.submitReport plans input actor) (.submitReport plans input' actor)
  | createInvoice (plans : List MeasurementPlan) (reportId : String)
      {input input' : PreviewInvoiceInput} (actor : Actor) (h : input.trimmed = input'.trimmed) :
      Repeats (.createInvoice plans reportId input actor)
        (.createInvoice plans reportId input' actor)

/-- The call is made again, from the same place, in a browser whose storage works. -/
structure IsRepetition (r r' : Request) : Prop where
  orgId : r'.orgId = r.orgId
  callId : r'.callId = r.callId
  call : Repeats r.call r'.call
  readable : r'.moment.readable = true
  writeError : r'.moment.writeError = none

/-- A line of an invoice says of a row of the report what the input enters for it. -/
structure SaysRate (inputs : List PreviewInvoiceLineInput) (row : PreviewReportLine)
    (line : PreviewInvoiceLine) : Prop where
  planId : line.planId = row.planId
  lineId : line.lineId = row.lineId
  description : line.description = row.description
  unit : line.unit = row.unit
  declared : some line.declaredQuantity = row.declaredQuantity
  final : line.finalQuantity = row.quantity
  entered : line.toPreviewInvoiceLineInput ∈ inputs

/-- The input of the call, normalized, is that of the latest report, which waits for review, or
that of the latest invoice. -/
def SameAsLatest (rt : Runtime) (saved : CloseoutRecord) : Call → Prop
  | .submitReport plans input _ => ∃ latest, saved.reports.getLast? = some latest ∧
      reportStatus latest = .submitted ∧
      latest.sourceFingerprint = voyageInputFingerprint rt (activePlans rt plans) ∧
      latest.reason = trim input.reason ∧
      List.Forall₂ (SaysEntry input) (sourceLines (activePlans rt plans)) latest.lines
  | .createInvoice plans _ input _ => ∃ report latest,
      currentReport rt plans saved = some report ∧ saved.invoices.getLast? = some latest ∧
      latest.reportId = report.id ∧
      latest.toPreviewInvoiceTerms =
        { input.toPreviewInvoiceTerms with payer := trim input.payer } ∧
      List.Forall₂ (SaysRate input.lines) report.lines latest.lines
  | _ => False

/-- The figures of the call can be read again: the quantities of the returns are numbers, as in
the plans the server emits, and the rates have at most `d` digits before the point on a report of
at most `10 ^ (17 - d)` lines.  The rates the editor and the tariff let pass have eleven. -/
def WithinDigits (rt : Runtime) (saved : CloseoutRecord) : Call → Prop
  | .submitReport plans _ _ => ∀ plan ∈ activePlans rt plans, QuantitiesRead plan
  | .createInvoice plans _ input _ => ∀ report, currentReport rt plans saved = some report →
      ∃ d ≤ 17, RatesWithin d input.lines ∧ report.lines.length ≤ 10 ^ (17 - d)
  | _ => True

/-- One report or invoice more, and one event more. -/
inductive Adds (before after : CloseoutRecord) : Answer → Prop
  | report (report : PreviewReport) (event : PreviewEvent)
      (h : after = { before with
        reports := before.reports ++ [report]
        events := before.events ++ [event] }) : Adds before after (.report report)
  | invoice (invoice : PreviewInvoice) (event : PreviewEvent)
      (h : after = { before with
        invoices := before.invoices ++ [invoice]
        events := before.events ++ [event] }) : Adds before after (.invoice invoice)

/-! ## The change again -/

section Changes

variable {rt : Runtime} {moment moment' : Moment} {saved after : CloseoutRecord} {actor : Actor}

/-- A line is made from what is left of its entry when its reason is trimmed. -/
theorem submittedLine_congr {input input' : ReportInput} (h : input.trimmed = input'.trimmed)
    (source : MeasurementPlan × CargoLine) :
    submittedLine input source = submittedLine input' source := by
  have hfind : (input.lines.find? fun item =>
        item.planId = source.1.id && item.lineId = source.2.id).map ReportLineInput.trimmed =
      (input'.lines.find? fun item =>
        item.planId = source.1.id && item.lineId = source.2.id).map ReportLineInput.trimmed := by
    have hlines : input.lines.map ReportLineInput.trimmed =
        input'.lines.map ReportLineInput.trimmed := congrArg ReportInput.lines h
    have hfound := congrArg (List.find? fun item =>
      item.planId = source.1.id && item.lineId = source.2.id) hlines
    rw [List.find?_map, List.find?_map] at hfound
    exact hfound
  unfold submittedLine
  cases hentry : input.lines.find? fun item =>
      item.planId = source.1.id && item.lineId = source.2.id with
  | none =>
      rw [hentry, Option.map_none, eq_comm, Option.map_eq_none_iff] at hfind
      rw [hfind]
  | some entry =>
      rw [hentry, Option.map_some, eq_comm, Option.map_eq_some_iff] at hfind
      obtain ⟨entry', hentry', hsame⟩ := hfind
      have hplan : entry'.planId = entry.planId :=
        (congrArg ReportLineInput.planId hsame :)
      have hline : entry'.lineId = entry.lineId :=
        (congrArg ReportLineInput.lineId hsame :)
      have hquantity : entry'.quantity = entry.quantity :=
        (congrArg ReportLineInput.quantity hsame :)
      have hreason : trim entry'.reason = trim entry.reason :=
        (congrArg ReportLineInput.reason hsame :)
      rw [hentry']
      dsimp only [orRaise]
      rw [ok_bind, ok_bind, hplan, hline, hquantity, hreason]

theorem Submittable.of_trimmed {callId : String} {plans : List MeasurementPlan}
    {input input' : ReportInput} {lines : List PreviewReportLine}
    (hsame : input.trimmed = input'.trimmed) (h : Submittable rt callId plans input lines) :
    Submittable rt callId plans input' lines := by
  have hreason : trim input.reason = trim input'.reason := congrArg ReportInput.reason hsame
  have hlines : input.lines.map ReportLineInput.trimmed =
      input'.lines.map ReportLineInput.trimmed := congrArg ReportInput.lines hsame
  have hkeys : (input.lines.map fun line => lineKey line.planId line.lineId) =
      input'.lines.map fun line => lineKey line.planId line.lineId := by
    have hmapped := congrArg (List.map fun line => lineKey line.planId line.lineId) hlines
    rw [List.map_map, List.map_map] at hmapped
    exact hmapped
  have hlength : input.lines.length = input'.lines.length := by
    simpa using congrArg List.length hlines
  refine ⟨h.complete, h.voyage, hreason ▸ h.note, hlength ▸ h.length, hkeys ▸ h.keys, ?_⟩
  rw [← h.lines]
  exact mapM_congr_ok fun source _ => (submittedLine_congr hsame source).symm

/-- What a submission has returned is what the record says now. -/
theorem submitReport_again {callId : String} {plans : List MeasurementPlan}
    {input input' : ReportInput} {report : PreviewReport}
    (hsame : input.trimmed = input'.trimmed)
    (h : submitReport rt moment callId plans input actor saved = .ok (report, after)) :
    submitReport rt moment' callId plans input' actor after = .ok (report, after) := by
  have hreason : trim input.reason = trim input'.reason := congrArg ReportInput.reason hsame
  obtain ⟨lines, hlines, hcases⟩ := submitReport_cases h
  have hrepeated : repeatedReport rt after plans input' lines = some report := by
    rcases hcases with ⟨hrepeated, rfl⟩ | ⟨-, rfl, rfl⟩
    · rw [repeatedReport_eq_some] at hrepeated ⊢
      exact hreason ▸ hrepeated
    · rw [repeatedReport_eq_some]
      exact ⟨List.getLast?_concat, rfl, rfl, hreason, rfl⟩
  rw [submitReport_of_submittable (hlines.of_trimmed hsame), hrepeated]
  rfl

/-- Inputs that are alike when trimmed differ in the payer alone. -/
theorem eq_of_trimmed {input input' : PreviewInvoiceInput}
    (h : input.trimmed = input'.trimmed) :
    ∃ payer, trim payer = trim input.payer ∧ input' = { input with payer := payer } := by
  refine ⟨input'.payer, ?_, ?_⟩
  · exact (congrArg (fun i : PreviewInvoiceInput => i.payer) h.symm :)
  · calc input' = { input'.trimmed with payer := input'.payer } := rfl
      _ = { input.trimmed with payer := input'.payer } := by rw [h]

/-- What a draft has returned is what the record says now. -/
theorem draftInvoice_again {report : PreviewReport} {input input' : PreviewInvoiceInput}
    {invoice : PreviewInvoice} (hsame : input.trimmed = input'.trimmed)
    (h : draftInvoice rt moment saved report input actor = .ok (invoice, after)) :
    draftInvoice rt moment' after report input' actor = .ok (invoice, after) := by
  obtain ⟨payer, hpayer, rfl⟩ := eq_of_trimmed hsame
  obtain ⟨hbillable, hcases⟩ := draftInvoice_cases h
  have hagain : Billable report { input with payer := payer } :=
    ⟨⟨hpayer ▸ hbillable.names.1, hbillable.names.2⟩, hbillable.paidAmount, hbillable.currency,
      hbillable.issues, hbillable.paid, hbillable.previous⟩
  have hrepeated : repeatedInvoice after report { input with payer := payer } = some invoice := by
    rw [repeatedInvoice_eq_some]
    dsimp only
    rw [hpayer]
    rcases hcases with ⟨hrepeated, rfl⟩ | ⟨-, rfl, rfl⟩
    · exact repeatedInvoice_eq_some.mp hrepeated
    · exact ⟨List.getLast?_concat, rfl, rfl, rfl⟩
  rw [draftInvoice_of_billable hagain, hrepeated]
  rfl

theorem createInvoice_again {plans : List MeasurementPlan} {reportId : String}
    {input input' : PreviewInvoiceInput} {invoice : PreviewInvoice}
    (hsame : input.trimmed = input'.trimmed)
    (h : createInvoice rt moment plans reportId input actor saved = .ok (invoice, after)) :
    createInvoice rt moment' plans reportId input' actor after = .ok (invoice, after) := by
  obtain ⟨report, hcurrent, hid, hdraft⟩ := createInvoice_eq_ok h
  have hreports : after.reports = saved.reports := (draftInvoice_frame hdraft).2.1
  have hfound : (currentReport rt plans after).filter (fun report => report.id = reportId) =
      some report := by
    rw [currentReport_congr hreports, hcurrent, Option.filter_some, if_pos (decide_eq_true hid)]
  unfold createInvoice
  rw [orRaise_of_some hfound, ok_bind]
  exact draftInvoice_again hsame hdraft

/-- The change of a repeated call changes nothing. -/
theorem changeOf_again {callId : String} {call call' : Call} {answer : Answer}
    (hrepeats : Repeats call call')
    (h : changeOf rt moment callId call saved = .ok (answer, after)) :
    changeOf rt moment' callId call' after = .ok (answer, after) := by
  cases hrepeats with
  | submitReport plans actor hsame =>
      obtain ⟨report, hsubmit, rfl⟩ := map_eq_ok_iff.mp h
      exact map_eq_ok_iff.mpr ⟨report, submitReport_again hsame hsubmit, rfl⟩
  | createInvoice plans reportId actor hsame =>
      obtain ⟨invoice, hcreate, rfl⟩ := map_eq_ok_iff.mp h
      exact map_eq_ok_iff.mpr ⟨invoice, createInvoice_again hsame hcreate, rfl⟩

/-- The line of an invoice that is calculated for a row says what is entered for it. -/
theorem saysRate_of_calculateLine {inputs : List PreviewInvoiceLineInput}
    {row : PreviewReportLine} {charge : PreviewInvoiceLine × ℕ}
    (h : calculateLine inputs row = .ok charge) : SaysRate inputs row charge.1 := by
  obtain ⟨input, f, hinput, hf, rfl⟩ := calculateLine_eq_ok.mp h
  have hkeys := List.find?_some hinput
  simp only [Bool.and_eq_true, decide_eq_true_eq] at hkeys
  refine ⟨hkeys.1, hkeys.2, rfl, rfl, ?_, rfl, List.mem_of_find?_eq_some hinput⟩
  have hdeclared := (lineFigures_eq_some.mp hf).1
  cases hrow : row.declaredQuantity with
  | none =>
      rw [hrow] at hdeclared
      cases hdeclared
  | some text => simp [invoiceLine, hrow]

/-- Without issues, the lines of an invoice are those of the rows, in order. -/
theorem saysRate_of_calculateVariation {rows : List PreviewReportLine}
    {inputs : List PreviewInvoiceLineInput} (h : (calculateVariation rows inputs).issues = []) :
    List.Forall₂ (SaysRate inputs) rows (calculateVariation rows inputs).lines := by
  have hcalculated := (calculationIssues_eq_nil.mp h).2.2
  show List.Forall₂ (SaysRate inputs) rows ((chargesOf rows inputs).map Prod.fst)
  rw [List.forall₂_map_right_iff]
  clear h
  induction rows with
  | nil => exact .nil
  | cons row rows ih =>
      obtain ⟨charge, hcharge⟩ := hcalculated row List.mem_cons_self
      have hrest := ih fun row' hrow' => hcalculated row' (List.mem_cons_of_mem _ hrow')
      have hcons : chargesOf (row :: rows) inputs = charge :: chargesOf rows inputs := by
        simp [chargesOf, hcharge, Except.toOption]
      rw [hcons]
      exact .cons (saysRate_of_calculateLine hcharge) hrest

/-- What a submission adds to its record. -/
theorem submitReport_adds {callId : String} {plans : List MeasurementPlan} {input : ReportInput}
    {report : PreviewReport}
    (h : submitReport rt moment callId plans input actor saved = .ok (report, after)) :
    SameAsLatest rt saved (.submitReport plans input actor) ∧ after = saved ∨
      Adds saved after (.report report) := by
  obtain ⟨lines, hlines, ⟨hrepeated, rfl⟩ | ⟨-, rfl, rfl⟩⟩ := submitReport_cases h
  · obtain ⟨hlast, hstatus, hfingerprint, hreason, rfl⟩ := repeatedReport_eq_some.mp hrepeated
    refine .inl ⟨⟨report, hlast, hstatus, hfingerprint, hreason, ?_⟩, rfl⟩
    exact (mapM_eq_ok.mp hlines.lines).imp fun _ _ => saysEntry_of_submittedLine
  · exact .inr (.report _ _ rfl)

theorem createInvoice_adds {plans : List MeasurementPlan} {reportId : String}
    {input : PreviewInvoiceInput} {invoice : PreviewInvoice}
    (h : createInvoice rt moment plans reportId input actor saved = .ok (invoice, after)) :
    SameAsLatest rt saved (.createInvoice plans reportId input actor) ∧ after = saved ∨
      Adds saved after (.invoice invoice) := by
  obtain ⟨report, hcurrent, -, hdraft⟩ := createInvoice_eq_ok h
  obtain ⟨hbillable, ⟨hrepeated, rfl⟩ | ⟨-, rfl, rfl⟩⟩ := draftInvoice_cases hdraft
  · obtain ⟨hlast, hreport, hterms, hlines⟩ := repeatedInvoice_eq_some.mp hrepeated
    refine .inl ⟨⟨report, invoice, hcurrent, hlast, hreport, hterms, ?_⟩, rfl⟩
    rw [hlines]
    exact saysRate_of_calculateVariation hbillable.issues
  · exact .inr (.invoice _ _ rfl)

/-- Either the input is that of the latest and the record stays as it is, or it has one report or
invoice and one event more. -/
theorem changeOf_adds {callId : String} {call call' : Call} {answer : Answer}
    (hrepeats : Repeats call call')
    (h : changeOf rt moment callId call saved = .ok (answer, after)) :
    SameAsLatest rt saved call ∧ after = saved ∨ Adds saved after answer := by
  cases hrepeats with
  | submitReport plans actor hsame =>
      obtain ⟨report, hsubmit, rfl⟩ := map_eq_ok_iff.mp h
      exact submitReport_adds hsubmit
  | createInvoice plans reportId actor hsame =>
      obtain ⟨invoice, hcreate, rfl⟩ := map_eq_ok_iff.mp h
      exact createInvoice_adds hcreate

/-! ## Whether it can be read -/

/-- With a new report a record is valid where the quantities of the sheets are read. -/
theorem validRecord_submitted_iff {plans : List MeasurementPlan} {input : ReportInput}
    {lines : List PreviewReportLine} (hsaved : validRecord saved = true)
    (hlines : Submittable rt saved.callId plans input lines) :
    validRecord (pushReport moment saved.callId saved
        (submittedReportOf rt moment saved.callId saved plans input lines actor) actor) = true ↔
      ∀ plan ∈ activePlans rt plans, QuantitiesRead plan := by
  unfold submittedReportOf
  rw [← validReport_newReport hlines.complete hlines.voyage hlines.lines]
  refine ⟨fun h => ?_, fun h => validRecord_pushReport hsaved h⟩
  exact (validRecord_iff.mp h).2.1 _ (List.mem_append_right _ List.mem_cons_self)

/-- With a new invoice a record is valid where its total is one. -/
theorem validRecord_drafted_iff {report : PreviewReport} {input : PreviewInvoiceInput}
    (hsaved : validRecord saved = true) (hreport : report ∈ saved.reports)
    (h : draftInvoice rt moment saved report input actor =
      .ok (newInvoice rt moment saved report input actor,
        pushInvoice moment saved (newInvoice rt moment saved report input actor) actor)) :
    validRecord
        (pushInvoice moment saved (newInvoice rt moment saved report input actor) actor) = true ↔
      validMoney (calculateVariation report.lines input.lines).total = true := by
  refine ⟨fun hvalid => ?_, fun htotal => validRecord_draftInvoice hsaved hreport htotal h⟩
  have hinvoice := (validRecord_iff.mp hvalid).2.2.1
    (newInvoice rt moment saved report input actor)
    (List.mem_append_right _ List.mem_cons_self)
  simp only [validInvoice, Bool.and_eq_true] at hinvoice
  exact hinvoice.1.1.2

/-- An accepted submission or creation leaves a valid record, within the digits. -/
theorem validRecord_changeOf {callId : String} {call call' : Call} {answer : Answer}
    (hrepeats : Repeats call call') (hsaved : validRecord saved = true)
    (hid : saved.callId = callId) (hwithin : WithinDigits rt saved call)
    (h : changeOf rt moment callId call saved = .ok (answer, after)) :
    validRecord after = true := by
  subst hid
  cases hrepeats with
  | submitReport plans actor hsame =>
      obtain ⟨report, hsubmit, rfl⟩ := map_eq_ok_iff.mp h
      obtain ⟨lines, hlines, ⟨-, rfl⟩ | ⟨-, rfl, rfl⟩⟩ := submitReport_cases hsubmit
      · exact hsaved
      · exact (validRecord_submitted_iff hsaved hlines).mpr hwithin
  | createInvoice plans reportId actor hsame =>
      obtain ⟨invoice, hcreate, rfl⟩ := map_eq_ok_iff.mp h
      obtain ⟨report, hcurrent, -, hdraft⟩ := createInvoice_eq_ok hcreate
      obtain ⟨-, ⟨-, rfl⟩ | ⟨-, rfl, rfl⟩⟩ := draftInvoice_cases hdraft
      · exact hsaved
      · rw [validRecord_drafted_iff hsaved (mem_of_currentReport hcurrent).1 hdraft]
        obtain ⟨d, hd, hrates, hlength⟩ := hwithin report hcurrent
        exact validMoney_total_of_rates hd hlength fun row _ input hinput f hf =>
          LineFigures.rate_lt hf (hrates input hinput)

end Changes

/-! ## The call again -/

section Calls

variable {rt : Runtime} {storage after : LocalStorage} {r r' : Request} {answer : Answer}
  {org key : String} {updated : CloseoutRecord}

/-- A call whose change is accepted, on an item that can be read, writes it. -/
theorem perform_of_stored {data : StoredPreviews} (horg : r.orgId = some org)
    (hkey : closeoutStorageKey rt r.orgId = some key) (hcall : r.callId ≠ "")
    (hreadable : r.moment.readable = true) (hwrite : r.moment.writeError = none)
    (hdata : storage key = some (.previews data)) (hvalid : data.valid org = true)
    (hchange : changeOf rt r.moment r.callId r.call (recordOf r.callId data.records) =
      .ok (answer, updated)) :
    perform rt storage r = (storage.setItem key (.previews {
      version := 1
      organizationId := org
      records := (data.records.filter fun item => item.callId ≠ r.callId) ++ [updated] }),
      .ok answer) := by
  unfold perform mutate
  dsimp only
  rw [hreadable, readPreviews_of_stored horg hkey hdata hvalid]
  simp only [if_neg hcall, hchange, hwrite, horg, Option.getD_some]

/-- Writing a row again where it is already the last changes nothing. -/
theorem renew_renew (updated : CloseoutRecord) (records : List CloseoutRecord) :
    ((Table.renew updated records).filter fun item => item.callId ≠ updated.callId) ++ [updated] =
      Table.renew updated records := by
  show Table.renew updated (Table.renew updated records) = _
  simp [Table.renew, List.filter_append, List.filter_filter]

/-- A repeated call succeeds, and changes nothing, where what the first one wrote is valid. -/
theorem perform_again (h : Written rt storage after r answer org key updated)
    (hr : IsRepetition r r') (hvalid : validRecord updated = true) :
    perform rt after r' = (after, .ok answer) := by
  have hitem : after key = some (.previews
      ⟨1, org, Table.renew updated (storage.saved key)⟩) := by
    rw [h.item]
    exact setItem_self _ _ _
  have hrecord : recordOf r'.callId (Table.renew updated (storage.saved key)) = updated := by
    rw [hr.callId, ← h.callId, recordOf]
    have hget : Table.get updated.callId (Table.renew updated (storage.saved key)) =
        some updated := Table.get_renew_self updated _
    rw [hget, Option.getD_some]
  have hchange : changeOf rt r'.moment r'.callId r'.call
      (recordOf r'.callId (Table.renew updated (storage.saved key))) = .ok (answer, updated) := by
    rw [hrecord, hr.callId]
    exact changeOf_again hr.call h.change
  rw [perform_of_stored (hr.orgId.trans h.orgId) ((congrArg _ hr.orgId).trans h.storageKey)
    (hr.callId ▸ h.call) hr.readable hr.writeError hitem (stored_valid h hvalid) hchange]
  dsimp only
  rw [hr.callId, ← h.callId, renew_renew]
  congr 1
  funext k
  by_cases hk : k = key
  · rw [hk, setItem_self, hitem]
  · exact setItem_of_ne hk _

/-- A repeated call that succeeds has found what the first one wrote valid. -/
theorem valid_of_perform_again {after' : LocalStorage} {answer' : Answer}
    (h : Written rt storage after r answer org key updated) (hr : IsRepetition r r')
    (hagain : perform rt after r' = (after', .ok answer')) : validRecord updated = true := by
  obtain ⟨org', key', updated', hwritten⟩ := written_of_perform hagain
  have hkey : key' = key := by
    have hsame := hwritten.storageKey
    rw [hr.orgId, h.storageKey] at hsame
    exact (Option.some.inj hsame).symm
  subst hkey
  have hsaved : after.saved key' = Table.renew updated (storage.saved key') := by
    rw [h.item, saved_setItem_self]
  have hmem : updated ∈ after.saved key' := hsaved ▸ Table.mem_renew.mpr (.inr rfl)
  rcases hwritten.stored with hnil | ⟨data, hdata, hvalid⟩
  · rw [hnil] at hmem
    cases hmem
  · rw [LocalStorage.saved, hdata] at hmem
    exact (StoredPreviews.valid_iff.mp hvalid).2.2.1 updated hmem

/-- **Repeating a call creates nothing new.**  After a successful submission or creation within
the digits, repeating it returns the same and leaves the storage as it is; and the call itself
adds one report or invoice and one event, unless its input is that of the latest, when it may
leave the record as it is. -/
theorem repeated_calls (rt : Runtime) {storage after : LocalStorage} {r r' : Request}
    {answer : Answer} {key : String} (hkey : closeoutStorageKey rt r.orgId = some key)
    (h : perform rt storage r = (after, .ok answer)) (hr : IsRepetition r r') :
    (WithinDigits rt (storage.record key r.callId) r.call →
      perform rt after r' = (after, .ok answer)) ∧
    (SameAsLatest rt (storage.record key r.callId) r.call ∧
        after.record key r.callId = storage.record key r.callId ∨
      Adds (storage.record key r.callId) (after.record key r.callId) answer) := by
  obtain ⟨org, key', updated, hwritten⟩ := written_of_perform h
  cases hkey.symm.trans hwritten.storageKey
  have hid : (storage.record key r.callId).callId = r.callId := recordOf_callId _ _
  refine ⟨fun hwithin => perform_again hwritten hr ?_, ?_⟩
  · exact validRecord_changeOf hr.call hwritten.valid hid hwithin hwritten.change
  · rw [hwritten.record]
    exact changeOf_adds hr.call hwritten.change

end Calls

/-! ## A hundred and one lines -/

/-- The total of lines that are all charged the same. -/
theorem calculateVariation_uniform {rows : List PreviewReportLine}
    {inputs : List PreviewInvoiceLineInput} {f : LineFigures}
    {input : PreviewReportLine → PreviewInvoiceLineInput}
    (hkeys : (inputs.map fun row => lineKey row.planId row.lineId).Nodup)
    (hlength : inputs.length = rows.length) (hrows : rows ≠ [])
    (hinput : ∀ row ∈ rows, inputFor inputs row = some (input row))
    (hfigures : ∀ row ∈ rows, lineFigures row (input row) = some f)
    (hstatus : f.status = .charge) (hamount : 0 < f.amount) :
    (calculateVariation rows inputs).issues = [] ∧
      (calculateVariation rows inputs).status = .draft ∧
      (calculateVariation rows inputs).total = fixed ((rows.length * f.amount : ℕ) : ℤ) 2 := by
  have hline : ∀ row ∈ rows,
      calculateLine inputs row = .ok (invoiceLine row (input row) f, f.amount) := fun row hrow =>
    calculateLine_eq_ok.mpr ⟨input row, f, hinput row hrow, hfigures row hrow, rfl⟩
  have hissues : calculationIssues rows inputs = [] :=
    calculationIssues_eq_nil.mpr ⟨hkeys, hlength, fun row hrow => ⟨_, hline row hrow⟩⟩
  have hcharges := chargesOf_eq_map hline
  have hsum : ((chargesOf rows inputs).map Prod.snd).sum = rows.length * f.amount := by
    rw [hcharges, List.map_map]
    show (rows.map fun _ => f.amount).sum = _
    rw [List.map_const', List.sum_replicate, smul_eq_mul]
  have htotal : 0 < rows.length * f.amount :=
    Nat.mul_pos (List.length_pos_iff.mpr hrows) hamount
  have hdraft : (calculateVariation rows inputs).status = .draft := by
    show variationStatus _ _ _ = .draft
    -- Every line is charged, so none holds the draft.
    have hother : ∀ status : PreviewLineStatus, status ≠ .charge →
        ((chargesOf rows inputs).map Prod.fst).any (·.status = status) = false := by
      intro status hne
      rw [List.any_eq_false, hcharges, List.map_map]
      intro line hmem
      obtain ⟨row, -, rfl⟩ := List.mem_map.mp hmem
      show ¬decide (f.status = status) = true
      rw [hstatus, decide_eq_true_eq]
      exact hne.symm
    unfold variationStatus
    rw [hissues, hother .held (by decide), hother .overpaymentReview (by decide), hsum]
    simp [htotal]
  refine ⟨hissues, hdraft, ?_⟩
  have hcounted : ¬((calculateVariation rows inputs).status = .held ∨
      (calculateVariation rows inputs).status = .overpaymentReview) := by
    rw [hdraft]
    decide
  calc (calculateVariation rows inputs).total
      = fixed ((((chargesOf rows inputs).map Prod.snd).sum : ℕ) : ℤ) 2 := if_neg hcounted
    _ = fixed ((rows.length * f.amount : ℕ) : ℤ) 2 := by rw [hsum]

namespace Sample

/-- A sheet of a hundred and one lines without declared quantities to speak of. -/
def bulkCargo (n : ℕ) : CargoLine :=
  { cargoLine with id := toString n, manifestQuantity := some "0.000" }

def bulkPlan : MeasurementPlan :=
  { plan with participants := [], submissions := [], lines := (List.range 101).map bulkCargo }

def bulkLine (n : ℕ) : PreviewReportLine :=
  ⟨"plan-1", toString n, "Steel coils", .tonnes, some "0.000", "999999999999999.999", "agreed"⟩

def bulkReport : PreviewReport where
  id := "report-1"
  callId := "call-1"
  revision := 1
  sourceFingerprint := "plan-1@3"
  status := some .approved
  preparedAt := some "2026-01-01"
  preparedBy := some preparer
  approvedAt := some "2026-01-02"
  approvedBy := some reviewer
  returnedAt := none
  returnedBy := none
  returnComment := none
  reason := "checked"
  lines := (List.range 101).map bulkLine
  sourcePlans := [bulkPlan]

def bulkRecord : CloseoutRecord where
  callId := "call-1"
  reports := [bulkReport]
  invoices := []
  events := []
  declaration := none

def bulkStorage : LocalStorage := start.setItem key (.previews ⟨1, "org-1", [bulkRecord]⟩)

def bulkInput (row : PreviewReportLine) : PreviewInvoiceLineInput :=
  ⟨row.planId, row.lineId, "999999999999999.9999", "0.00"⟩

def bulkInvoice : PreviewInvoiceInput :=
  { invoiceInput with lines := bulkReport.lines.map bulkInput }

def bulkRequest (n : ℕ) : Request :=
  request n (.createInvoice [bulkPlan] "report-1" bulkInvoice reviewer)

/-- The figures of each line. -/
def bulkFigures : LineFigures := ⟨0, 999999999999999999000, 9999999999999999999, 0⟩

theorem nodup_bulkRows :
    (bulkReport.lines.map fun row => (row.planId, row.lineId)).Nodup := by
  rw [bulkReport, List.map_map]
  exact List.nodup_range.map fun m n h => toString_inj (congrArg Prod.snd h)

theorem nodup_bulkKeys :
    (bulkInvoice.lines.map fun row => lineKey row.planId row.lineId).Nodup := by
  rw [bulkInvoice, bulkReport, List.map_map, List.map_map]
  refine List.nodup_range.map fun m n h => toString_inj ?_
  exact (String.append_right_inj _).mp h

/-- What a hundred and one lines come to. -/
theorem bulkVariation :
    (calculateVariation bulkReport.lines bulkInvoice.lines).issues = [] ∧
      (calculateVariation bulkReport.lines bulkInvoice.lines).status = .draft ∧
      (calculateVariation bulkReport.lines bulkInvoice.lines).total =
        fixed ((bulkReport.lines.length * bulkFigures.amount : ℕ) : ℤ) 2 := by
  refine @calculateVariation_uniform _ _ _ bulkInput nodup_bulkKeys ?_ (by decide)
    (fun row hrow => inputFor_map (fun _ => ⟨rfl, rfl⟩) nodup_bulkRows hrow) ?_ (by decide)
    (by decide)
  · rw [bulkInvoice, List.length_map]
  · intro row hrow
    obtain ⟨n, -, rfl⟩ := List.mem_map.mp hrow
    exact lineFigures_eq_some.mpr
      ⟨(by decide : decimal (some "0.000") 6 15 = some 0),
        (by decide :
          decimal (some "999999999999999.999") 6 15 = some 999999999999999999000),
        (by decide :
          decimal (some "999999999999999.9999") 4 15 = some 9999999999999999999),
        (by decide : decimal (some "0.00") 2 15 = some 0)⟩

theorem billable_bulk : Billable bulkReport bulkInvoice := by
  obtain ⟨hissues, hdraft, -⟩ := bulkVariation
  refine ⟨by decide, .inl rfl, by decide, hissues, fun _ => rfl, ?_⟩
  rintro ⟨line, hline, hpos⟩
  obtain ⟨row, -, rfl⟩ := List.mem_map.mp hline
  exact absurd hpos (by decide : ¬0 < (decimal (some "0.00") 2 15).getD 0)

theorem validRecord_bulk : validRecord bulkRecord = true := by
  have hzero : (decimal (some "0.000") 6 15).isSome = true := by decide
  refine validRecord_iff.mpr ⟨by decide, fun report hreport => ?_, nofun, nofun, rfl⟩
  rw [List.mem_singleton.mp hreport]
  refine validReport_iff.mpr ⟨rfl, .inr ⟨rfl, rfl⟩, fun _ => ⟨rfl, rfl⟩, ?_, ?_, ?_⟩
  · intro hreturned
    cases hreturned
  · intro line hline
    obtain ⟨n, -, rfl⟩ := List.mem_map.mp hline
    exact (by decide : ((decimal (some "999999999999999.999") 6 15).isSome &&
      (decimal (some "0.000") 6 15).isSome) = true)
  · intro sheet hsheet
    rw [List.mem_singleton.mp hsheet]
    refine validSourcePlan_iff.mpr ⟨rfl, fun line hline => ?_, nofun⟩
    obtain ⟨n, -, rfl⟩ := List.mem_map.mp hline
    exact hzero

/-- The invoice drafted for it. -/
def bulkDraft : PreviewInvoice :=
  newInvoice runtime (moment 3) bulkRecord bulkReport bulkInvoice reviewer

theorem currentReport_bulk : currentReport runtime [bulkPlan] bulkRecord = some bulkReport :=
  currentReport_of_approved (List.nil_append _).symm rfl (by decide)

theorem draftInvoice_bulk : draftInvoice runtime (moment 3) bulkRecord bulkReport bulkInvoice
    reviewer = .ok (bulkDraft, pushInvoice (moment 3) bulkRecord bulkDraft reviewer) := by
  rw [draftInvoice_of_billable billable_bulk]
  rfl

theorem createInvoice_bulk : changeOf runtime (moment 3) "call-1"
    (.createInvoice [bulkPlan] "report-1" bulkInvoice reviewer) bulkRecord =
      .ok (.invoice bulkDraft, pushInvoice (moment 3) bulkRecord bulkDraft reviewer) := by
  have hfound : (currentReport runtime [bulkPlan] bulkRecord).filter
      (fun report => report.id = "report-1") = some bulkReport := by
    rw [currentReport_bulk]
    rfl
  have hcreate : createInvoice runtime (moment 3) [bulkPlan] "report-1" bulkInvoice reviewer
      bulkRecord = .ok (bulkDraft, pushInvoice (moment 3) bulkRecord bulkDraft reviewer) := by
    unfold createInvoice
    rw [orRaise_of_some hfound, ok_bind]
    exact draftInvoice_bulk
  unfold changeOf
  dsimp only
  rw [hcreate]
  rfl

theorem not_validRecord_bulk :
    validRecord (pushInvoice (moment 3) bulkRecord bulkDraft reviewer) = false := by
  have hmem : bulkReport ∈ bulkRecord.reports := List.mem_singleton_self _
  rw [← Bool.not_eq_true, bulkDraft,
    validRecord_drafted_iff validRecord_bulk hmem draftInvoice_bulk, bulkVariation.2.2,
    Bool.not_eq_true]
  decide +kernel

end Sample

/-- The invoice over a hundred and one lines is drafted, and then the previews cannot be read
any more. -/
theorem bulk_draft_not_repeated : ∃ after answer,
    perform Sample.runtime Sample.bulkStorage (Sample.bulkRequest 3) = (after, .ok answer) ∧
      IsRepetition (Sample.bulkRequest 3) (Sample.bulkRequest 4) ∧
      ∀ after' answer', perform Sample.runtime after (Sample.bulkRequest 4) ≠
        (after', .ok answer') := by
  have hdata : StoredPreviews.valid "org-1" ⟨1, "org-1", [Sample.bulkRecord]⟩ = true := by
    refine StoredPreviews.valid_iff.mpr ⟨rfl, rfl, fun record hrecord => ?_, by decide⟩
    rw [List.mem_singleton.mp hrecord]
    exact Sample.validRecord_bulk
  have hkey : closeoutStorageKey Sample.runtime (some "org-1") = some Sample.key := by decide
  have hitem : Sample.bulkStorage Sample.key =
      some (.previews ⟨1, "org-1", [Sample.bulkRecord]⟩) := setItem_self _ _ _
  have hfirst := perform_of_stored (r := Sample.bulkRequest 3) rfl hkey (by decide) rfl rfl hitem
    hdata Sample.createInvoice_bulk
  have hagain : IsRepetition (Sample.bulkRequest 3) (Sample.bulkRequest 4) :=
    ⟨rfl, rfl, .createInvoice _ _ _ rfl, rfl, rfl⟩
  refine ⟨_, _, hfirst, hagain, fun after' answer' hsecond => ?_⟩
  obtain ⟨org, key, updated, hwritten⟩ := written_of_perform hfirst
  have hvalid := valid_of_perform_again hwritten hagain hsecond
  obtain rfl : Sample.key = key := Option.some.inj (hkey.symm.trans hwritten.storageKey)
  have hrecord : Sample.bulkStorage.record Sample.key "call-1" = Sample.bulkRecord := by
    rw [LocalStorage.record, Sample.bulkStorage, saved_setItem_self]
    rfl
  have hchange := hwritten.change
  rw [show (Sample.bulkRequest 3).callId = "call-1" from rfl, hrecord] at hchange
  cases hchange.symm.trans Sample.createInvoice_bulk
  rw [Sample.not_validRecord_bulk] at hvalid
  cases hvalid

/-- The report of the sample is submitted again with a blank behind its note. -/
def Sample.resubmission : Request :=
  Sample.request 5
    (.submitReport [Sample.plan] { Sample.reportInput with reason := "checked " } Sample.preparer)

/-- The report of the sample again. -/
theorem repeated_calls_sample : ∃ answer,
    perform Sample.runtime Sample.start
      (Sample.request 0 (.submitReport [Sample.plan] Sample.reportInput Sample.preparer)) =
        (Sample.submitted, .ok answer) ∧
    perform Sample.runtime Sample.submitted Sample.resubmission =
      (Sample.submitted, .ok answer) ∧
    Adds (Sample.start.record Sample.key "call-1") (Sample.submitted.record Sample.key "call-1")
      answer := by
  obtain ⟨answer, hanswer⟩ := isOk_iff.mp (show (perform Sample.runtime Sample.start
    (Sample.request 0 (.submitReport [Sample.plan] Sample.reportInput Sample.preparer))).2.isOk =
      true by decide)
  have hfirst : perform Sample.runtime Sample.start
      (Sample.request 0 (.submitReport [Sample.plan] Sample.reportInput Sample.preparer)) =
        (Sample.submitted, .ok answer) := Prod.ext rfl hanswer
  have hkey : closeoutStorageKey Sample.runtime (some "org-1") = some Sample.key := by decide
  have hrepetition : IsRepetition
      (Sample.request 0 (.submitReport [Sample.plan] Sample.reportInput Sample.preparer))
      Sample.resubmission := ⟨rfl, rfl, .submitReport _ _ (by decide), rfl, rfl⟩
  obtain ⟨hagain, hadds⟩ := repeated_calls Sample.runtime hkey hfirst hrepetition
  refine ⟨answer, hfirst, hagain ?_, ?_⟩
  · intro plan hplan submission hsubmission line hline
    rw [List.mem_singleton.mp (mem_activePlans.mp hplan).1] at hsubmission
    rw [List.mem_singleton.mp hsubmission] at hline
    rw [List.mem_singleton.mp hline]
    exact .inr (by decide)
  · rcases hadds with ⟨⟨_, hnone, -⟩, -⟩ | hadds
    · cases hnone
    · exact hadds

end VesselCaller.Closeout
