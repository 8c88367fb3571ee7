import VesselCaller.Closeout.Changes

/-!
# Four eyes on a close-out

A report is approved by somebody else than its preparer, for the inputs presented then; once
approved or returned it does not change; and an invoice is only ever drawn up from a report
that is approved and current.  `MakerChecker` says this of a whole run of calls, of any tabs
on any voyages, over an arbitrary local storage.

One call is described once, by `RecordStep`: what it does to the reports, the invoices and
the events of its voyage.  `changeOf_step` derives it for the five calls; everything about
runs follows from it and from the frame of `mutate`, which touches one voyage of one item.

## Main definitions

* `ReportStep`, `RecordStep` — what a call does to the reports, and to the record;
* `Continues` — what is settled stays;
* `ApprovedIn`, `DraftedIn` — what a run has approved and drawn up;
* `MakerChecker` — the guarantees of a run, one field each.
-/

namespace VesselCaller.Closeout

open Lib

/-! ## One call on a record -/

/-- A report without what its review has added. -/
def PreviewReport.content (report : PreviewReport) : PreviewReport :=
  { report with
    status := none
    approvedAt := none
    approvedBy := none
    returnedAt := none
    returnedBy := none
    returnComment := none }

/-- What a call may do to the reports of a voyage: nothing, submit the next revision, or
settle the last report if it waits for review. -/
inductive ReportStep (before after : List PreviewReport) : Prop where
  | same (unchanged : after = before)
  | submitted (report : PreviewReport) (status : report.status = some .submitted)
      (revision : report.revision = (before.getLast?.map PreviewReport.revision).getD 0 + 1)
      (added : after = before ++ [report])
  | settled (earlier : List PreviewReport) (report reviewed : PreviewReport)
      (last : before = earlier ++ [report]) (waiting : report.status = some .submitted)
      (status : reviewed.status = some .approved ∨ reviewed.status = some .returned)
      (content : reviewed.content = report.content) (replaced : after = earlier ++ [reviewed])

/-- The plans a call presents. -/
def Call.plans : Call → Option (List MeasurementPlan)
  | .saveDeclaration _ _ => none
  | .submitReport plans _ _ => some plans
  | .approveReport plans _ _ _ => some plans
  | .returnReport _ _ _ => none
  | .createInvoice plans _ _ _ => some plans

/-- How an approval came about: another than the preparer gave it, for inputs that the
report matches. -/
def ApprovedBy (rt : Runtime) (call : Call) (report : PreviewReport) : Prop :=
  ∃ plans preparer approver invoice, call = .approveReport plans report.id approver invoice ∧
    report.preparedBy = some preparer ∧ report.approvedBy = some approver ∧
    approver.id ≠ preparer.id ∧ matchesInputs rt report plans = true

/-- What one call does to the record of its voyage. -/
structure RecordStep (rt : Runtime) (call : Call) (before after : CloseoutRecord) : Prop where
  callId : after.callId = before.callId
  reports : ReportStep before.reports after.reports
  approved : ∀ report ∈ after.reports, report.status = some .approved →
    report ∈ before.reports ∨ ApprovedBy rt call report
  invoices : after.invoices = before.invoices ∨ ∃ plans report invoice,
    call.plans = some plans ∧ currentReport rt plans after = some report ∧
      invoice.reportId = report.id ∧ after.invoices = before.invoices ++ [invoice]
  events : before.events <+: after.events

section Steps

variable {rt : Runtime} {moment : Moment} {saved after : CloseoutRecord} {actor : Actor}

/-- A call that leaves reports and invoices as they are. -/
theorem RecordStep.of_same {call : Call} (hcall : after.callId = saved.callId)
    (hreports : after.reports = saved.reports) (hinvoices : after.invoices = saved.invoices)
    (hevents : saved.events <+: after.events) : RecordStep rt call saved after where
  callId := hcall
  reports := .same hreports
  approved _ hreport _ := .inl (hreports ▸ hreport)
  invoices := .inl hinvoices
  events := hevents

/-- The reports a draft leaves, and what it does to the rest. -/
theorem draftInvoice_frame {report : PreviewReport} {input : PreviewInvoiceInput}
    {invoice : PreviewInvoice}
    (h : draftInvoice rt moment saved report input actor = .ok (invoice, after)) :
    after.callId = saved.callId ∧ after.reports = saved.reports ∧
      saved.events <+: after.events ∧
      (after.invoices = saved.invoices ∨
        ∃ drafted, drafted.reportId = report.id ∧
          after.invoices = saved.invoices ++ [drafted]) := by
  obtain ⟨-, -, -, rfl | ⟨rfl, rfl⟩⟩ := draftInvoice_eq_ok h
  · exact ⟨rfl, rfl, List.prefix_rfl, .inl rfl⟩
  · exact ⟨rfl, rfl, List.prefix_append _ _, .inr ⟨_, rfl, rfl⟩⟩

/-- Which report is current depends on the reports alone. -/
theorem currentReport_congr {a b : CloseoutRecord} (h : a.reports = b.reports)
    (plans : List MeasurementPlan) : currentReport rt plans a = currentReport rt plans b := by
  rw [currentReport, currentReport, h]

/-- A report that has just been approved is current. -/
theorem currentReport_of_approved {record : CloseoutRecord} {earlier : List PreviewReport}
    {report : PreviewReport} {plans : List MeasurementPlan}
    (hreports : record.reports = earlier ++ [report])
    (hstatus : report.status = some .approved) (hmatches : matchesInputs rt report plans = true) :
    currentReport rt plans record = some report := by
  have happroved : reportStatus report = .approved := by
    rw [reportStatus, hstatus, Option.getD_some]
  rw [currentReport, hreports, List.reverse_append, List.reverse_singleton,
    List.singleton_append, List.find?_cons_of_pos (by simpa using happroved)]
  simp [hmatches]

/-- A report that waits for review is the last one. -/
theorem reports_of_submittedReport {reportId : String} {report : PreviewReport}
    (h : submittedReport saved reportId = some report) :
    saved.reports = saved.reports.dropLast ++ [report] ∧ report.id = reportId ∧
      report.status = some .submitted := by
  obtain ⟨hlast, hid, hstatus⟩ := submittedReport_eq_some.mp h
  obtain ⟨earlier, hearlier⟩ := List.getLast?_eq_some_iff.mp hlast
  rw [hearlier, List.dropLast_concat]
  exact ⟨rfl, hid, hstatus⟩

/-- Settling the last report. -/
theorem reportStep_settle {reportId callId : String} {report reviewed : PreviewReport}
    {action : PreviewEventAction} (h : submittedReport saved reportId = some report)
    (hstatus : reviewed.status = some .approved ∨ reviewed.status = some .returned)
    (hcontent : reviewed.content = report.content) :
    ReportStep saved.reports
      (settleReport moment saved callId reviewed actor action).reports := by
  obtain ⟨hlast, -, hwaiting⟩ := reports_of_submittedReport h
  exact .settled _ report reviewed hlast hwaiting hstatus hcontent rfl

/-- A report that waits for review says who has prepared it. -/
theorem preparedBy_of_valid {report : PreviewReport} {callId : String}
    (hvalid : validReport report callId = true) (hstatus : report.status = some .submitted) :
    ∃ preparer, report.preparedBy = some preparer := by
  unfold validReport at hvalid
  simp only [Bool.and_eq_true, Bool.or_eq_true, decide_eq_true_eq, hstatus, reduceCtorEq,
    false_or] at hvalid
  exact Option.isSome_iff_exists.mp hvalid.1.1.1.1.2.2

/-- An approval settles the current report. -/
theorem approveReport_step {callId reportId : String} {plans : List MeasurementPlan}
    {invoice : Option PreviewInvoiceInput} {result : Approved}
    (hvalid : ∀ report ∈ saved.reports, validReport report callId = true)
    (h : approveReport rt moment callId plans reportId actor invoice saved =
      .ok (result, after)) :
    RecordStep rt (.approveReport plans reportId actor invoice) saved after := by
  obtain ⟨report, hreport, hmatches, hsecond, hafter⟩ := approveReport_eq_ok h
  obtain ⟨hlast, rfl, hwaiting⟩ := reports_of_submittedReport hreport
  have hmem : report ∈ saved.reports := List.mem_of_getLast? (submittedReport_eq_some.mp hreport).1
  obtain ⟨preparer, hpreparer⟩ := preparedBy_of_valid (hvalid report hmem) hwaiting
  have hother : actor.id ≠ preparer.id := by
    intro hsame
    rw [hpreparer, Option.map_some, hsame] at hsecond
    exact hsecond rfl
  have happroval : ApprovedBy rt (.approveReport plans report.id actor invoice)
      (approvedBy moment report actor) :=
    ⟨plans, preparer, actor, invoice, rfl, hpreparer, rfl, hother, hmatches⟩
  -- With or without a draft, the reports are those of the settled record.
  have hframe : after.callId = saved.callId ∧
      after.reports = saved.reports.dropLast ++ [approvedBy moment report actor] ∧
      saved.events <+: after.events ∧ (after.invoices = saved.invoices ∨
        ∃ drafted, drafted.reportId = report.id ∧
          after.invoices = saved.invoices ++ [drafted]) := by
    obtain rfl | ⟨input, drafted, hdraft⟩ := hafter
    · exact ⟨rfl, rfl, List.prefix_append _ _, .inl rfl⟩
    · obtain ⟨hcall, hreports, hevents, hinvoices⟩ := draftInvoice_frame hdraft
      exact ⟨hcall, hreports, (List.prefix_append _ _).trans hevents, hinvoices⟩
  obtain ⟨hcall, hreports, hevents, hinvoices⟩ := hframe
  refine ⟨hcall, ?_, ?_, ?_, hevents⟩
  · have hstep : ReportStep saved.reports (settleReport moment saved callId
        (approvedBy moment report actor) actor .reportApproved).reports :=
      reportStep_settle hreport (.inl rfl) rfl
    rw [hreports]
    exact hstep
  · intro other hmem _
    rw [hreports, List.mem_append, List.mem_singleton] at hmem
    obtain hearlier | rfl := hmem
    · exact .inl (List.dropLast_subset _ hearlier)
    · exact .inr happroval
  · obtain hsame | ⟨drafted, hid, hadded⟩ := hinvoices
    · exact .inl hsame
    · exact .inr ⟨plans, _, drafted, rfl, currentReport_of_approved hreports rfl hmatches, hid,
        hadded⟩

/-- A return settles the current report. -/
theorem returnReport_step {callId reportId comment : String} {result : PreviewReport}
    (h : returnReport moment callId reportId actor comment saved = .ok (result, after)) :
    RecordStep rt (.returnReport reportId actor comment) saved after := by
  obtain ⟨report, hreport, rfl⟩ := returnReport_eq_ok h
  refine ⟨rfl, reportStep_settle hreport (.inr rfl) rfl, ?_, .inl rfl, List.prefix_append _ _⟩
  intro other hother hstatus
  obtain hearlier | hlast := List.mem_append.mp hother
  · exact .inl (List.dropLast_subset _ hearlier)
  · rw [List.mem_singleton.mp hlast] at hstatus
    cases hstatus

/-- A submission adds a report, or finds it there. -/
theorem submitReport_step {callId : String} {plans : List MeasurementPlan} {input : ReportInput}
    {report : PreviewReport}
    (h : submitReport rt moment callId plans input actor saved = .ok (report, after)) :
    RecordStep rt (.submitReport plans input actor) saved after := by
  obtain ⟨-, -, lines, -, rfl | ⟨rfl, rfl⟩⟩ := submitReport_eq_ok h
  · exact .of_same rfl rfl rfl List.prefix_rfl
  refine ⟨rfl, .submitted _ rfl rfl rfl, ?_, .inl rfl, List.prefix_append _ _⟩
  intro other hother hstatus
  obtain hearlier | hlast := List.mem_append.mp hother
  · exact .inl hearlier
  · rw [List.mem_singleton.mp hlast] at hstatus
    cases hstatus

/-- A draft adds an invoice, or finds it there. -/
theorem createInvoice_step {reportId : String} {plans : List MeasurementPlan}
    {input : PreviewInvoiceInput} {invoice : PreviewInvoice}
    (h : createInvoice rt moment plans reportId input actor saved = .ok (invoice, after)) :
    RecordStep rt (.createInvoice plans reportId input actor) saved after := by
  obtain ⟨report, hcurrent, -, hdraft⟩ := createInvoice_eq_ok h
  obtain ⟨hcall, hreports, hevents, hinvoices⟩ := draftInvoice_frame hdraft
  refine ⟨hcall, .same hreports, fun other hother _ => .inl (hreports ▸ hother), ?_, hevents⟩
  obtain hsame | ⟨drafted, hid, hadded⟩ := hinvoices
  · exact .inl hsame
  · rw [← currentReport_congr hreports] at hcurrent
    exact .inr ⟨plans, report, drafted, rfl, hcurrent, hid, hadded⟩

/-- An answer that is wrapped. -/
theorem eq_ok_of_map_eq_ok {A B : Type} {x : Except String (A × CloseoutRecord)} {f : A → B}
    {b : B} (h : x.map (Prod.map f id) = .ok (b, after)) : ∃ a, x = .ok (a, after) := by
  cases x with
  | error message => cases h
  | ok result =>
      cases h
      exact ⟨result.1, rfl⟩

/-- What any of the five calls does to the record of its voyage. -/
theorem changeOf_step {callId : String} {call : Call} {answer : Answer}
    (hvalid : ∀ report ∈ saved.reports, validReport report callId = true)
    (h : changeOf rt moment callId call saved = .ok (answer, after)) :
    RecordStep rt call saved after := by
  cases call with
  | saveDeclaration input actor =>
      obtain ⟨declaration, h⟩ := eq_ok_of_map_eq_ok h
      obtain ⟨rfl, -⟩ := saveDeclaration_eq_ok h
      exact .of_same rfl rfl rfl List.prefix_rfl
  | submitReport plans input actor =>
      obtain ⟨report, h⟩ := eq_ok_of_map_eq_ok h
      exact submitReport_step h
  | approveReport plans reportId actor invoice =>
      obtain ⟨result, h⟩ := eq_ok_of_map_eq_ok h
      exact approveReport_step hvalid h
  | returnReport reportId actor comment =>
      obtain ⟨result, h⟩ := eq_ok_of_map_eq_ok h
      exact returnReport_step h
  | createInvoice plans reportId input actor =>
      obtain ⟨invoice, h⟩ := eq_ok_of_map_eq_ok h
      exact createInvoice_step h

end Steps

/-! ## What lasts -/

/-- What a record keeps of an earlier one: the reports that were approved or returned, at
their places, the invoices, and the events. -/
structure Continues (before after : CloseoutRecord) : Prop where
  reports : ∀ (i : ℕ) (report : PreviewReport), before.reports[i]? = some report →
    reportStatus report ≠ .submitted → after.reports[i]? = some report
  invoices : before.invoices <+: after.invoices
  events : before.events <+: after.events

/-- A record goes on as it is. -/
theorem Continues.refl (record : CloseoutRecord) : Continues record record :=
  ⟨fun _ _ h _ => h, List.prefix_rfl, List.prefix_rfl⟩

/-- Going on, step after step. -/
theorem Continues.trans {a b c : CloseoutRecord} (hab : Continues a b) (hbc : Continues b c) :
    Continues a c where
  reports i report h hstatus := hbc.reports i report (hab.reports i report h hstatus) hstatus
  invoices := hab.invoices.trans hbc.invoices
  events := hab.events.trans hbc.events

/-- A report that does not wait for review stays at its place. -/
theorem ReportStep.kept {before after : List PreviewReport} (step : ReportStep before after)
    {i : ℕ} {report : PreviewReport} (h : before[i]? = some report)
    (hstatus : reportStatus report ≠ .submitted) : after[i]? = some report := by
  cases step with
  | same unchanged => rw [unchanged, h]
  | submitted added _ _ hafter =>
      rw [hafter, List.getElem?_append_left (List.getElem?_eq_some_iff.mp h).1, h]
  | settled earlier old reviewed hbefore hwaiting _ _ hafter =>
      rw [hbefore] at h
      rw [hafter]
      obtain hlt | hge := Nat.lt_or_ge i earlier.length
      · rw [List.getElem?_append_left hlt] at h ⊢
        exact h
      · rw [List.getElem?_append_right hge] at h
        -- The last report waited, so it is not the one that is kept.
        have hold : report = old := by
          have hmem := List.mem_of_getElem? h
          simpa using hmem
        refine absurd ?_ hstatus
        rw [hold, reportStatus, hwaiting, Option.getD_some]

/-- A step keeps what was settled before it. -/
theorem RecordStep.continues {rt : Runtime} {call : Call} {before after : CloseoutRecord}
    (step : RecordStep rt call before after) : Continues before after where
  reports _ _ h hstatus := step.reports.kept h hstatus
  invoices := by
    obtain hsame | ⟨_, _, invoice, _, _, _, hadded⟩ := step.invoices
    · rw [hsame]
    · exact ⟨[invoice], hadded.symm⟩
  events := step.events

/-! ## One call on the storage -/

section Storage

variable {rt : Runtime}

/-- The call is one on the voyage `callId` of the item `key`. -/
def Request.At (rt : Runtime) (r : Request) (key callId : String) : Prop :=
  closeoutStorageKey rt r.orgId = some key ∧ r.callId = callId

/-- An accepted call, as it is performed. -/
theorem perform_of_handle {storage after : LocalStorage} {r : Request} {answer : Answer}
    (h : handle rt storage r = .ok (after, answer)) :
    perform rt storage r = (after, .ok answer) := by
  unfold handle at h
  split at h
  · rename_i hperform
    cases h
    exact hperform
  · cases h

/-- A performed call, as it is accepted. -/
theorem handle_of_perform {storage after : LocalStorage} {r : Request} {answer : Answer}
    (h : perform rt storage r = (after, .ok answer)) :
    handle rt storage r = .ok (after, answer) := by
  rw [handle, h]

/-- A call that fails is refused. -/
theorem handle_of_perform_error {storage : LocalStorage} {r : Request} {message : String}
    (h : (perform rt storage r).2 = .error message) : handle rt storage r = .error message := by
  have hperform : perform rt storage r = ((perform rt storage r).1, .error message) :=
    Prod.ext rfl h
  rw [handle, hperform]

/-- A call that succeeded: its change was made to the record of its voyage, and the record
written back over the one that was there. -/
structure Written (rt : Runtime) (storage after : LocalStorage) (r : Request) (answer : Answer)
    (org key : String) (updated : CloseoutRecord) : Prop where
  orgId : r.orgId = some org
  storageKey : closeoutStorageKey rt r.orgId = some key
  call : r.callId ≠ ""
  stored : storage.saved key = [] ∨ ∃ data, storage key = some (.previews data) ∧
    data.valid org = true
  change : changeOf rt r.moment r.callId r.call (storage.record key r.callId) =
    .ok (answer, updated)
  step : RecordStep rt r.call (storage.record key r.callId) updated
  callId : updated.callId = r.callId
  item : after = storage.setItem key (.previews {
    version := 1
    organizationId := org
    records := Table.renew updated (storage.saved key) })
  record : after.record key r.callId = updated

/-- A call that succeeds has written its record. -/
theorem written_of_perform {storage after : LocalStorage} {r : Request} {answer : Answer}
    (h : perform rt storage r = (after, .ok answer)) :
    ∃ org key updated, Written rt storage after r answer org key updated := by
  obtain ⟨org, key, updated, horg, hkey, hcall, hvalid, hchange, rfl⟩ := mutate_eq_ok h
  have hreports : ∀ report ∈ (storage.record key r.callId).reports,
      validReport report r.callId = true := by
    intro report hreport
    obtain hrecord | hempty := validRecord_of_stored hvalid
    · have hvalidReport := (validRecord_iff.mp hrecord).2.1 report hreport
      rwa [LocalStorage.record, recordOf_callId] at hvalidReport
    · rw [hempty] at hreport
      cases hreport
  have hstep := changeOf_step hreports hchange
  have hid : updated.callId = r.callId := by
    rw [hstep.callId, LocalStorage.record, recordOf_callId]
  have hrenew : ((storage.saved key).filter fun item => item.callId ≠ r.callId) ++ [updated] =
      Table.renew updated (storage.saved key) := by
    rw [← hid]
    rfl
  have hget : Table.get r.callId (Table.renew updated (storage.saved key)) = some updated := by
    rw [← hid]
    exact Table.get_renew_self updated _
  rw [hrenew]
  refine ⟨org, key, updated, horg, hkey, hcall, hvalid, hchange, hstep, hid, rfl, ?_⟩
  rw [LocalStorage.record, saved_setItem_self, recordOf, hget, Option.getD_some]

/-- What a successful call does to the storage: one step of the record of its voyage; every
other record stays. -/
theorem handle_step {storage after : LocalStorage} {r : Request} {answer : Answer}
    (h : handle rt storage r = .ok (after, answer)) :
    ∃ key, r.At rt key r.callId ∧
      RecordStep rt r.call (storage.record key r.callId) (after.record key r.callId) ∧
      ∀ k v, ¬r.At rt k v → Table.get v (after.saved k) = Table.get v (storage.saved k) := by
  obtain ⟨org, key, updated, hwritten⟩ := written_of_perform (perform_of_handle h)
  refine ⟨key, ⟨hwritten.storageKey, rfl⟩, ?_, ?_⟩
  · rw [hwritten.record]
    exact hwritten.step
  · intro k v hother
    rw [hwritten.item]
    by_cases hk : k = key
    · subst hk
      have hv : v ≠ updated.callId := fun heq =>
        hother ⟨hwritten.storageKey, (heq.trans hwritten.callId).symm⟩
      rw [saved_setItem_self]
      exact Table.get_renew_of_ne hv
    · rw [saved_setItem_of_ne hk]

/-- For every voyage of every item: a step of its record, where the call is one on it, and
the same record, where it is not. -/
theorem handle_record {storage after : LocalStorage} {r : Request} {answer : Answer}
    (h : handle rt storage r = .ok (after, answer)) (key callId : String) :
    r.At rt key callId ∧
        RecordStep rt r.call (storage.record key callId) (after.record key callId) ∨
      ¬r.At rt key callId ∧ after.record key callId = storage.record key callId := by
  obtain ⟨key₀, hat, hstep, hframe⟩ := handle_step h
  by_cases hthis : r.At rt key callId
  · have hkey : key = key₀ := Option.some.inj (hthis.1.symm.trans hat.1)
    obtain rfl := hthis.2
    exact .inl ⟨hthis, hkey ▸ hstep⟩
  · refine .inr ⟨hthis, ?_⟩
    rw [LocalStorage.record, LocalStorage.record, recordOf, recordOf, hframe key callId hthis]

/-- A call that fails leaves the storage as it was. -/
theorem perform_error {storage : LocalStorage} {r : Request} {message : String}
    (h : (perform rt storage r).2 = .error message) : (perform rt storage r).1 = storage :=
  mutate_error (Prod.ext rfl h)

end Storage

/-! ## Runs -/

section Runs

variable {rt : Runtime}

/-- A call of the run from `start` that succeeds, with the storage it finds and the storage
it leaves. -/
structure Succeeds (rt : Runtime) (start : LocalStorage) (rs : List Request) (r : Request)
    (before after : LocalStorage) : Prop where
  served : ∃ past future, rs = past ++ r :: future ∧ run (handle rt) start past = before
  accepted : ∃ answer, perform rt before r = (after, .ok answer)

/-- A call that succeeded in a run did so in a longer one. -/
theorem Succeeds.concat {start before after : LocalStorage} {rs : List Request}
    {r : Request} (h : Succeeds rt start rs r before after) (next : Request) :
    Succeeds rt start (rs ++ [next]) r before after := by
  obtain ⟨⟨past, future, rfl, hbefore⟩, haccepted⟩ := h
  exact ⟨⟨past, future ++ [next], by simp, hbefore⟩, haccepted⟩

/-- The last call of a run that succeeds. -/
theorem succeeds_concat {start after : LocalStorage} {past : List Request} {r : Request}
    {answer : Answer} (h : handle rt (run (handle rt) start past) r = .ok (after, answer)) :
    Succeeds rt start (past ++ [r]) r (run (handle rt) start past) after :=
  ⟨⟨past, [], rfl, rfl⟩, answer, perform_of_handle h⟩

/-- The run has approved the report, by a second person and for inputs it matches. -/
def ApprovedIn (rt : Runtime) (start : LocalStorage) (rs : List Request) (key callId : String)
    (report : PreviewReport) : Prop :=
  ∃ r before after, Succeeds rt start rs r before after ∧ r.At rt key callId ∧
    ApprovedBy rt r.call report

/-- The run has drawn up the invoice, for the report that was approved and current for the
inputs its call presented. -/
def DraftedIn (rt : Runtime) (start : LocalStorage) (rs : List Request) (key callId : String)
    (invoice : PreviewInvoice) : Prop :=
  ∃ r before after plans report, Succeeds rt start rs r before after ∧ r.At rt key callId ∧
    r.call.plans = some plans ∧ currentReport rt plans (after.record key callId) = some report ∧
    invoice.reportId = report.id ∧
    (after.record key callId).invoices = (before.record key callId).invoices ++ [invoice]

/-- A report approved in a run was approved in a longer one. -/
theorem ApprovedIn.concat {start : LocalStorage} {rs : List Request} {key callId : String}
    {report : PreviewReport} (h : ApprovedIn rt start rs key callId report) (next : Request) :
    ApprovedIn rt start (rs ++ [next]) key callId report := by
  obtain ⟨r, before, after, hsucceeds, happroved⟩ := h
  exact ⟨r, before, after, hsucceeds.concat next, happroved⟩

/-- An invoice drafted in a run was drafted in a longer one. -/
theorem DraftedIn.concat {start : LocalStorage} {rs : List Request} {key callId : String}
    {invoice : PreviewInvoice} (h : DraftedIn rt start rs key callId invoice) (next : Request) :
    DraftedIn rt start (rs ++ [next]) key callId invoice := by
  obtain ⟨r, before, after, plans, report, hsucceeds, hdrafted⟩ := h
  exact ⟨r, before, after, plans, report, hsucceeds.concat next, hdrafted⟩

/-- The revisions from the place `n` on each follow on the one before. -/
def Successive (n : ℕ) (revisions : List ℤ) : Prop :=
  ∀ (i : ℕ) (a b : ℤ), n ≤ i + 1 → revisions[i]? = some a → revisions[i + 1]? = some b → b = a + 1

/-- The next revision is one more than the last. -/
theorem Successive.concat {n : ℕ} {revisions : List ℤ} {next : ℤ} (h : Successive n revisions)
    (hnext : ∀ last, revisions.getLast? = some last → next = last + 1) :
    Successive n (revisions ++ [next]) := by
  intro i a b hn ha hb
  obtain hlt | hge := Nat.lt_or_ge (i + 1) revisions.length
  · rw [List.getElem?_append_left (by omega)] at ha
    rw [List.getElem?_append_left hlt] at hb
    exact h i a b hn ha hb
  · have hlength : i + 1 < (revisions ++ [next]).length := (List.getElem?_eq_some_iff.mp hb).1
    rw [List.length_append, List.length_singleton] at hlength
    have hend : i + 1 = revisions.length := by omega
    rw [hend, List.getElem?_concat_length] at hb
    rw [List.getElem?_append_left (by omega)] at ha
    have hlast : revisions.getLast? = some a := by
      rw [List.getLast?_eq_getElem?, ← hend, Nat.add_sub_cancel]
      exact ha
    rw [← Option.some.inj hb]
    exact hnext a hlast

/-- One call keeps the revisions in sequence. -/
theorem ReportStep.successive {before after : List PreviewReport}
    (step : ReportStep before after) {n : ℕ}
    (hbefore : Successive n (before.map PreviewReport.revision)) :
    Successive n (after.map PreviewReport.revision) := by
  cases step with
  | same unchanged => rwa [unchanged]
  | submitted report _ hrevision hafter =>
      rw [hafter, List.map_append]
      refine hbefore.concat ?_
      rw [List.getLast?_map]
      intro last hlast
      rw [hrevision, hlast, Option.getD_some]
  | settled earlier report reviewed hlast _ _ hcontent hafter =>
      have hrevision : reviewed.revision = report.revision := by
        have hsame := congrArg PreviewReport.revision hcontent
        exact hsame
      rw [hafter, List.map_append, List.map_singleton, hrevision]
      rwa [hlast, List.map_append, List.map_singleton] at hbefore

/-- What a run of calls from `start` guarantees. -/
structure MakerChecker (rt : Runtime) (start : LocalStorage) (rs : List Request) : Prop where
  approved : ∀ key callId, ∀ report ∈ ((run (handle rt) start rs).record key callId).reports,
    report.status = some .approved → ApprovedIn rt start rs key callId report
  /-- Only the last report changes its status, from submitted to approved or returned; a
  report that is added is submitted, with the next revision. -/
  reports : ∀ r before after, Succeeds rt start rs r before after → ∀ key callId,
    ReportStep (before.record key callId).reports (after.record key callId).reports
  revisions : ∀ key callId, Successive (start.record key callId).reports.length
    (((run (handle rt) start rs).record key callId).reports.map PreviewReport.revision)
  /-- Reports that are approved or returned, invoices and events last. -/
  kept : ∀ past future, rs = past ++ future → ∀ key callId,
    Continues ((run (handle rt) start past).record key callId)
      ((run (handle rt) start rs).record key callId)
  invoices : ∀ key callId,
    ∀ invoice ∈ ((run (handle rt) start rs).record key callId).invoices,
      invoice ∈ (start.record key callId).invoices ∨ DraftedIn rt start rs key callId invoice
  /-- A call touches the record of its own voyage only. -/
  others : ∀ r before after, Succeeds rt start rs r before after → ∀ key callId,
    ¬r.At rt key callId → Table.get callId (after.saved key) = Table.get callId (before.saved key)
  /-- A call that fails leaves the storage as it was. -/
  failed : ∀ past r future message, rs = past ++ r :: future →
    (perform rt (run (handle rt) start past) r).2 = .error message →
      (perform rt (run (handle rt) start past) r).1 = run (handle rt) start past ∧
        run (handle rt) start (past ++ [r]) = run (handle rt) start past

/-- The previews as the version before the review step has left them, an empty storage among
them: no report has a status. -/
def BeforeReview (start : LocalStorage) : Prop :=
  ∀ key callId, ∀ report ∈ (start.record key callId).reports, report.status = none

/-- What a run keeps, whatever the storage was. -/
theorem run_continues (start : LocalStorage) (rs : List Request) (key callId : String) :
    Continues (start.record key callId) ((run (handle rt) start rs).record key callId) := by
  refine run_relation (P := fun _ => True)
    (Q := fun s s' : LocalStorage => Continues (s.record key callId) (s'.record key callId))
    (fun s => .refl _) (fun h h' => h.trans h') (fun _ _ => trivial) ?_ rs trivial
  intro s r s' answer _ h
  obtain ⟨_, hstep⟩ | ⟨_, hsame⟩ := handle_record h key callId
  · exact hstep.continues
  · rw [hsame]
    exact .refl _

/-- The revisions of a run's reports count up by one. -/
theorem run_successive (start : LocalStorage) (rs : List Request) (key callId : String) :
    Successive (start.record key callId).reports.length
      (((run (handle rt) start rs).record key callId).reports.map PreviewReport.revision) := by
  refine run_invariant (P := fun s : LocalStorage => Successive (start.record key callId).reports.length
    ((s.record key callId).reports.map PreviewReport.revision)) ?_ rs ?_
  · intro s r s' answer hs h
    obtain ⟨_, hstep⟩ | ⟨_, hsame⟩ := handle_record h key callId
    · exact hstep.reports.successive hs
    · rwa [hsame]
  · intro i a b hn ha hb
    have hlength := (List.getElem?_eq_some_iff.mp hb).1
    rw [List.length_map] at hlength
    omega

/-- Every approved report was approved in the run. -/
theorem run_approved {start : LocalStorage} (hstart : BeforeReview start) (rs : List Request)
    (key callId : String) :
    ∀ report ∈ ((run (handle rt) start rs).record key callId).reports,
      report.status = some .approved → ApprovedIn rt start rs key callId report := by
  refine run_history (P := fun past (s : LocalStorage) =>
    ∀ report ∈ (s.record key callId).reports, report.status = some .approved →
      ApprovedIn rt start past key callId report) ?_ ?_ ?_ rs
  · intro report hreport hstatus
    rw [hstart key callId report hreport] at hstatus
    cases hstatus
  · intro past r message hpast _ report hreport hstatus
    exact (hpast report hreport hstatus).concat r
  · intro past r s' answer hpast h report hreport hstatus
    obtain ⟨hat, hstep⟩ | ⟨_, hsame⟩ := handle_record h key callId
    · obtain hmem | happroved := hstep.approved report hreport hstatus
      · exact (hpast report hmem hstatus).concat r
      · exact ⟨r, _, _, succeeds_concat h, hat, happroved⟩
    · exact (hpast report (hsame ▸ hreport) hstatus).concat r

/-- Every invoice was there at the start or was drawn up in the run. -/
theorem run_invoices (start : LocalStorage) (rs : List Request) (key callId : String) :
    ∀ invoice ∈ ((run (handle rt) start rs).record key callId).invoices,
      invoice ∈ (start.record key callId).invoices ∨
        DraftedIn rt start rs key callId invoice := by
  refine run_history (P := fun past (s : LocalStorage) =>
    ∀ invoice ∈ (s.record key callId).invoices,
      invoice ∈ (start.record key callId).invoices ∨
        DraftedIn rt start past key callId invoice) ?_ ?_ ?_ rs
  · exact fun invoice hinvoice => .inl hinvoice
  · intro past r message hpast _ invoice hinvoice
    exact (hpast invoice hinvoice).imp_right fun hdrafted => hdrafted.concat r
  · intro past r s' answer hpast h invoice hinvoice
    have hearlier : invoice ∈ ((run (handle rt) start past).record key callId).invoices →
        invoice ∈ (start.record key callId).invoices ∨
          DraftedIn rt start (past ++ [r]) key callId invoice := by
      intro hmem
      exact (hpast invoice hmem).imp_right fun hdrafted => hdrafted.concat r
    obtain ⟨hat, hstep⟩ | ⟨_, hsame⟩ := handle_record h key callId
    · obtain hold | ⟨plans, report, drafted, hplans, hcurrent, hid, hadded⟩ := hstep.invoices
      · exact hearlier (hold ▸ hinvoice)
      · rw [hadded, List.mem_append, List.mem_singleton] at hinvoice
        obtain hmem | rfl := hinvoice
        · exact hearlier hmem
        · exact .inr ⟨r, _, _, plans, report, succeeds_concat h, hat, hplans, hcurrent, hid,
            hadded⟩
    · exact hearlier (hsame ▸ hinvoice)

/-- **Maker and checker.**  Whatever calls are made and in whatever order, what is approved was
approved by a second person, what is settled stays, and an invoice is drawn up for an approved
report. -/
theorem maker_checker (rt : Runtime) {start : LocalStorage} (hstart : BeforeReview start)
    (rs : List Request) : MakerChecker rt start rs where
  approved := run_approved hstart rs
  reports r before after h key callId := by
    obtain ⟨answer, haccepted⟩ := h.accepted
    obtain ⟨_, hstep⟩ | ⟨_, hsame⟩ := handle_record (handle_of_perform haccepted) key callId
    · exact hstep.reports
    · exact .same (congrArg CloseoutRecord.reports hsame)
  revisions := run_successive start rs
  kept past future hrs key callId := by
    rw [hrs, run_append]
    exact run_continues _ future key callId
  invoices := run_invoices start rs
  others r before after h key callId hother := by
    obtain ⟨answer, haccepted⟩ := h.accepted
    obtain ⟨_, _, _, hframe⟩ := handle_step (handle_of_perform haccepted)
    exact hframe key callId hother
  failed past r future message _ h := by
    refine ⟨perform_error h, ?_⟩
    have hrefused : handle rt (run (handle rt) start past) r = .error message :=
      handle_of_perform_error h
    rw [run_concat, serve_of_error _ hrefused]

/-- The preparer cannot approve the report; the reviewer can, and drafts its invoice. -/
theorem maker_checker_sample :
    MakerChecker Sample.runtime Sample.start Sample.calls ∧
      ((run (handle Sample.runtime) Sample.start Sample.calls).record Sample.key
        "call-1").reports.map PreviewReport.approvedBy = [some Sample.reviewer] ∧
      ((run (handle Sample.runtime) Sample.start Sample.calls).record Sample.key
        "call-1").invoices.map PreviewInvoice.total = ["40.63"] :=
  ⟨maker_checker Sample.runtime (fun _ _ _ h => by cases h) Sample.calls, by decide, by decide⟩

end Runs

end VesselCaller.Closeout
