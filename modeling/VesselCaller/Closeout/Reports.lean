import VesselCaller.Closeout.Acceptance
import VesselCaller.Closeout.Storage

/-!
# Where reports come from

A report is made once, by `submitReport`, from sheets that are complete; what its review adds
later leaves its lines and its fingerprint as they are.  So every report that a run of calls
has left in the storage is `FromSheets`, whatever the calls were.

## Main definitions

* `SubmittedFor` — a report as `submitReport` makes it for some sheets;
* `FromSheets` — there are such sheets;
* `SoundReport` — a report whose lines can be told apart and have quantities.
-/

namespace VesselCaller.Closeout

open Lib

/-- The report was submitted for complete sheets, with one entry for each of their lines. -/
structure SubmittedFor (rt : Runtime) (plans : List MeasurementPlan) (input : ReportInput)
    (report : PreviewReport) : Prop where
  complete : reconciliationIssues rt (activePlans rt plans) = []
  length : input.lines.length = (sourceLines (activePlans rt plans)).length
  keys : (input.lines.map fun line => lineKey line.planId line.lineId).Nodup
  lines : (sourceLines (activePlans rt plans)).mapM (submittedLine input) = .ok report.lines
  fingerprint : report.sourceFingerprint = voyageInputFingerprint rt (activePlans rt plans)

/-- The report was submitted, whatever has become of it. -/
def FromSheets (rt : Runtime) (report : PreviewReport) : Prop :=
  ∃ plans input, SubmittedFor rt plans input report

section Changes

variable {rt : Runtime} {moment : Moment} {saved after : CloseoutRecord} {actor : Actor}

/-- What was submitted is the content of a report. -/
theorem SubmittedFor.of_content {plans : List MeasurementPlan} {input : ReportInput}
    {report reviewed : PreviewReport} (hcontent : reviewed.content = report.content)
    (h : SubmittedFor rt plans input report) : SubmittedFor rt plans input reviewed := by
  have hlines : reviewed.lines = report.lines := (congrArg PreviewReport.lines hcontent :)
  have hfingerprint : reviewed.sourceFingerprint = report.sourceFingerprint :=
    (congrArg PreviewReport.sourceFingerprint hcontent :)
  exact ⟨h.complete, h.length, h.keys, hlines ▸ h.lines, hfingerprint.trans h.fingerprint⟩

/-- A report that a submission adds comes from the sheets presented. -/
theorem submitReport_fromSheets {callId : String} {plans : List MeasurementPlan}
    {input : ReportInput} {report : PreviewReport}
    (h : submitReport rt moment callId plans input actor saved = .ok (report, after)) :
    after = saved ∨ after = pushReport moment callId saved report actor ∧
      SubmittedFor rt plans input report := by
  obtain ⟨lines, hlines, ⟨-, hsame⟩ | ⟨-, rfl, hafter⟩⟩ := submitReport_cases h
  · exact .inl hsame
  · exact .inr ⟨hafter, hlines.complete, hlines.length, hlines.keys, hlines.lines, rfl⟩

/-- After a call, the content of a report is that of one before it, or has been submitted by
the call. -/
theorem changeOf_reports {callId : String} {call : Call} {answer : Answer}
    (h : changeOf rt moment callId call saved = .ok (answer, after)) :
    ∀ report ∈ after.reports, (∃ old ∈ saved.reports, report.content = old.content) ∨
      ∃ plans input actor, call = .submitReport plans input actor ∧
        SubmittedFor rt plans input report := by
  have hsame : ∀ report ∈ saved.reports, ∃ old ∈ saved.reports, report.content = old.content :=
    fun report hreport => ⟨report, hreport, rfl⟩
  -- Settling the last report keeps its content.
  have hsettle : ∀ {reportId : String} {report reviewed : PreviewReport} {actor : Actor}
      {action : PreviewEventAction}, submittedReport saved reportId = some report →
      reviewed.content = report.content →
      ∀ r ∈ (settleReport moment saved callId reviewed actor action).reports,
        ∃ old ∈ saved.reports, r.content = old.content := by
    intro reportId report reviewed actor action hfound hcontent r hr
    have hlast := (submittedReport_eq_some.mp hfound).1
    rcases List.mem_append.mp hr with hr | hr
    · exact hsame r (List.mem_of_mem_dropLast hr)
    · exact ⟨report, List.mem_of_getLast? hlast, List.mem_singleton.mp hr ▸ hcontent⟩
  cases call with
  | saveDeclaration input actor =>
      obtain ⟨_, h⟩ := eq_ok_of_map_eq_ok h
      rw [(saveDeclaration_eq_ok h).1]
      exact fun report hreport => .inl (hsame report hreport)
  | submitReport plans input actor =>
      obtain ⟨report, h⟩ := eq_ok_of_map_eq_ok h
      rcases submitReport_fromSheets h with rfl | ⟨rfl, hsheets⟩
      · exact fun report hreport => .inl (hsame report hreport)
      · intro r hr
        rcases List.mem_append.mp hr with hr | hr
        · exact .inl (hsame r hr)
        · exact .inr ⟨plans, input, actor, rfl, List.mem_singleton.mp hr ▸ hsheets⟩
  | approveReport plans reportId actor invoice =>
      obtain ⟨_, h⟩ := eq_ok_of_map_eq_ok h
      obtain ⟨report, hfound, -, -, hafter⟩ := approveReport_eq_ok h
      have hcontent : (approvedBy moment report actor).content = report.content := rfl
      rcases hafter with rfl | ⟨input, drafted, hdraft⟩
      · exact fun r hr => .inl (hsettle hfound hcontent r hr)
      · rw [(draftInvoice_frame hdraft).2.1]
        exact fun r hr => .inl (hsettle hfound hcontent r hr)
  | returnReport reportId actor comment =>
      obtain ⟨_, h⟩ := eq_ok_of_map_eq_ok h
      obtain ⟨report, hfound, rfl⟩ := returnReport_eq_ok h
      have hcontent : (returnedBy moment report actor comment).content = report.content := rfl
      exact fun r hr => .inl (hsettle hfound hcontent r hr)
  | createInvoice plans reportId input actor =>
      obtain ⟨_, h⟩ := eq_ok_of_map_eq_ok h
      obtain ⟨report, -, -, hdraft⟩ := createInvoice_eq_ok h
      rw [(draftInvoice_frame hdraft).2.1]
      exact fun report hreport => .inl (hsame report hreport)

end Changes

section Runs

variable {rt : Runtime} {start : LocalStorage} {rs : List Request}

/-- **Every report of a run was submitted for complete sheets**, with plans like those of the
calls. -/
theorem run_submitted {P : List MeasurementPlan → Prop}
    (hstart : ∀ key callId, ∀ report ∈ (start.record key callId).reports,
      ∃ plans input, P plans ∧ SubmittedFor rt plans input report)
    (hplans : ∀ r ∈ rs, ∀ plans, r.call.plans = some plans → P plans) (key callId : String) :
    ∀ report ∈ ((run (handle rt) start rs).record key callId).reports,
      ∃ plans input, P plans ∧ SubmittedFor rt plans input report := by
  refine run_invariant_along (P := fun s : LocalStorage => ∀ key callId,
      ∀ report ∈ (s.record key callId).reports,
        ∃ plans input, P plans ∧ SubmittedFor rt plans input report)
    (C := fun _ r => ∀ plans, r.call.plans = some plans → P plans) ?_ rs
    (along_of_forall start hplans) hstart key callId
  intro s r s' answer hs hr h key callId
  obtain ⟨org, key₀, updated, hwritten⟩ := written_of_perform (perform_of_handle h)
  rcases handle_record h key callId with ⟨⟨hat, rfl⟩, -⟩ | ⟨-, hsame⟩
  · obtain rfl := Option.some.inj (hat.symm.trans hwritten.storageKey)
    rw [hwritten.record]
    intro report hreport
    rcases changeOf_reports hwritten.change report hreport with
      ⟨old, hold, hcontent⟩ | ⟨plans, input, actor, hcall, hsubmitted⟩
    · obtain ⟨plans, input, hP, hsubmitted⟩ := hs key r.callId old hold
      exact ⟨plans, input, hP, hsubmitted.of_content hcontent⟩
    · exact ⟨plans, input, hr plans (by rw [hcall]; rfl), hsubmitted⟩
  · rw [hsame]
    exact hs key callId

theorem run_fromSheets
    (hstart : ∀ key callId, ∀ report ∈ (start.record key callId).reports, FromSheets rt report)
    (rs : List Request) (key callId : String) :
    ∀ report ∈ ((run (handle rt) start rs).record key callId).reports, FromSheets rt report := by
  intro report hreport
  obtain ⟨plans, input, -, hsubmitted⟩ := run_submitted (P := fun _ => True)
    (fun key callId report hreport => by
      obtain ⟨plans, input, hsubmitted⟩ := hstart key callId report hreport
      exact ⟨plans, input, trivial, hsubmitted⟩)
    (fun _ _ _ _ => trivial) key callId report hreport
  exact ⟨plans, input, hsubmitted⟩

end Runs

/-! ## The lines of a report -/

/-- Plans with different keys, of lines with different keys. -/
structure DistinctLines (plans : List MeasurementPlan) : Prop where
  keys : (plans.map MeasurementPlan.id).Nodup
  lines : ∀ plan ∈ plans, (plan.lines.map CargoLine.id).Nodup

theorem DistinctLines.active {rt : Runtime} {plans : List MeasurementPlan}
    (h : DistinctLines plans) : DistinctLines (activePlans rt plans) := by
  have hperm : (activePlans rt plans).Perm (plans.filter fun plan => plan.status ≠ .cancelled) :=
    List.perm_insertionSort _ _
  refine ⟨?_, fun plan hplan => h.lines plan (mem_activePlans.mp hplan).1⟩
  exact (hperm.map _).nodup_iff.mpr (h.keys.sublist (List.filter_sublist.map _))

/-- A report whose lines can be told apart and have quantities. -/
structure SoundReport (report : PreviewReport) : Prop where
  keys : (report.lines.map fun line => lineKey line.planId line.lineId).Nodup
  quantities : ∀ line ∈ report.lines, (decimal (some line.quantity) 3 15).isSome = true
  declared : ∀ line ∈ report.lines, (decimal line.declaredQuantity 6 15).isSome = true

/-- Plans with the same cargo lines among distinct ones are the same. -/
theorem DistinctLines.sources {plans : List MeasurementPlan} (h : DistinctLines plans) :
    ((sourceLines plans).map fun source => (source.1.id, source.2.id)).Nodup := by
  obtain ⟨hkeys, hlines⟩ := h
  unfold sourceLines
  induction plans with
  | nil => exact List.nodup_nil
  | cons plan plans ih =>
      rw [List.map_cons, List.nodup_cons] at hkeys
      rw [List.flatMap_cons, List.map_append, List.map_map]
      refine List.nodup_append'.mpr ⟨?_, ?_, ?_⟩
      · refine List.Nodup.of_map Prod.snd ?_
        rw [List.map_map]
        exact hlines plan List.mem_cons_self
      · exact ih hkeys.2 fun p hp => hlines p (List.mem_cons_of_mem _ hp)
      · intro pair hfirst hrest
        obtain ⟨line, -, rfl⟩ := List.mem_map.mp hfirst
        obtain ⟨source, hsource, heq⟩ := List.mem_map.mp hrest
        obtain ⟨other, hother, hmem⟩ := List.mem_flatMap.mp hsource
        obtain ⟨line', -, rfl⟩ := List.mem_map.mp hmem
        exact hkeys.1 (List.mem_map.mpr ⟨other, hother, congrArg Prod.fst heq⟩)

/-- What a line of a report is made from. -/
theorem submittedLine_eq_ok {input : ReportInput} {source : MeasurementPlan × CargoLine}
    {line : PreviewReportLine} (h : submittedLine input source = .ok line) :
    ∃ entry ∈ input.lines, entry.planId = source.1.id ∧ entry.lineId = source.2.id ∧
      line.planId = source.1.id ∧ line.lineId = source.2.id ∧ line.quantity = entry.quantity ∧
      line.declaredQuantity = source.2.manifestQuantity ∧
      (decimal (some entry.quantity) 3 15).isSome = true := by
  unfold submittedLine at h
  obtain ⟨entry, hentry, h⟩ := bind_eq_ok.mp h
  obtain ⟨value, hvalue, h⟩ := bind_eq_ok.mp h
  obtain ⟨_, -, h⟩ := bind_eq_ok.mp h
  obtain ⟨_, -, h⟩ := bind_eq_ok.mp h
  rw [orRaise_eq_ok] at hentry hvalue
  have hkeys := List.find?_some hentry
  rw [Bool.and_eq_true, decide_eq_true_eq, decide_eq_true_eq] at hkeys
  cases h
  exact ⟨entry, List.mem_of_find?_eq_some hentry, hkeys.1, hkeys.2, hkeys.1, hkeys.2, rfl, rfl,
    by rw [hvalue]; rfl⟩

/-- A report submitted for sheets with distinct lines is sound. -/
theorem SubmittedFor.sound {rt : Runtime} {plans : List MeasurementPlan} {input : ReportInput}
    {report : PreviewReport} (h : SubmittedFor rt plans input report)
    (hdistinct : DistinctLines (activePlans rt plans)) : SoundReport report := by
  have hpairs : (report.lines.map fun line => (line.planId, line.lineId)).Nodup := by
    have hsame : (report.lines.map fun line => (line.planId, line.lineId)) =
        (sourceLines (activePlans rt plans)).map fun source => (source.1.id, source.2.id) := by
      refine map_eq_of_mapM_eq_ok (fun source line hline => ?_) h.lines
      obtain ⟨-, -, -, -, hplan, hid, -⟩ := submittedLine_eq_ok hline
      rw [hplan, hid]
    rw [hsame]
    exact hdistinct.sources
  refine ⟨?_, fun line hline => ?_, fun line hline => ?_⟩
  · -- Lines of one key come from one entry, and so of one source.
    refine List.Nodup.map_on ?_ (hpairs.of_map _)
    intro line hline line' hline' hkey
    obtain ⟨source, -, hsource⟩ := mem_of_mapM_eq_ok h.lines line hline
    obtain ⟨source', -, hsource'⟩ := mem_of_mapM_eq_ok h.lines line' hline'
    obtain ⟨entry, hentry, hplan, hid, hplan₁, hid₁, -⟩ := submittedLine_eq_ok hsource
    obtain ⟨entry', hentry', hplan', hid', hplan₁', hid₁', -⟩ := submittedLine_eq_ok hsource'
    have hentries : entry = entry' := by
      refine List.inj_on_of_nodup_map h.keys hentry hentry' ?_
      rw [hplan, hid, hplan', hid', ← hplan₁, ← hid₁, ← hplan₁', ← hid₁']
      exact hkey
    refine List.inj_on_of_nodup_map hpairs hline hline' ?_
    rw [hplan₁, hid₁, hplan₁', hid₁', ← hplan, ← hid, ← hplan', ← hid', hentries]
  · obtain ⟨source, -, hsource⟩ := mem_of_mapM_eq_ok h.lines line hline
    obtain ⟨entry, -, -, -, -, -, hquantity, -, hsome⟩ := submittedLine_eq_ok hsource
    rw [hquantity]
    exact hsome
  · obtain ⟨source, hmem, hsource⟩ := mem_of_mapM_eq_ok h.lines line hline
    obtain ⟨plan, hplan, hlines⟩ := List.mem_flatMap.mp hmem
    obtain ⟨cargo, hcargo, rfl⟩ := List.mem_map.mp hlines
    obtain ⟨-, -, -, -, -, -, -, hdeclared, -⟩ := submittedLine_eq_ok hsource
    rw [hdeclared]
    exact isSome_manifestQuantity h.complete hplan hcargo

end VesselCaller.Closeout
