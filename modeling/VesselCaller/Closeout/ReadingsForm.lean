import VesselCaller.Closeout.Printer
import VesselCaller.Closeout.Readings
import VesselCaller.Closeout.Reports
import VesselCaller.Lib.Sorting

/-!
# The form of the final quantities

`screens/VoyageReadings.tsx`: the form starts from what the agencies agree on, is edited line
by line, and is submitted when it has no issues.  It checks its entries by itself, with a
pattern where `submitReport` reads numbers, and over the rows of the table where
`submitReport` goes over the cargo lines of the sheets.

A form without issues is accepted (`readings_form`): the pattern is what is read as a number
(`validFinalQuantity_iff`), an edit keeps the keys of the entries (`apply_keys`), and sheets
with one fingerprint have the same lines (`sourceKeys_of_fingerprint`), so the form holds one
entry for each line also where the sheets were loaded again after it was begun.

## Main definitions

* `validFinalQuantity`, `plainQuantity` — the patterns of the form;
* `Draft`, `Edit`, `submitForm` — the form, its edits and its submission;
* `BegunOn` — a draft begun on the plans as they are now;
* `Reports` — the report that is made says what the draft says.
-/

namespace VesselCaller.Closeout

open Lib

/-! ## Quantities -/

/-- `/\.0{1,3}$/`. -/
def endsInZeros (cs : List Char) : Bool :=
  [1, 2, 3].any fun k => ('.' :: List.replicate k '0').isSuffixOf cs

def validFinalQuantity (value : String) (unit : CargoUnit) : Bool :=
  let text := (trim value).toList
  fixedPattern 15 3 text && (unit ≠ .count || '.' ∉ text || endsInZeros text)

/-- A text with a point loses its trailing zeros, and then a trailing point. -/
def plainQuantity (value : String) : String :=
  if '.' ∈ value.toList then
    let kept := value.toList.rdropWhile (· = '0')
    String.ofList (if kept.getLast? = some '.' then kept.dropLast else kept)
  else value

/-! ## Drafts -/

abbrev FinalEntry := ReportLineInput

structure Draft where
  fingerprint : String
  reason : String
  lines : List FinalEntry
  deriving DecidableEq, Repr

def activeSheets (plans : List MeasurementPlan) : List MeasurementPlan :=
  plans.filter fun plan => plan.status ≠ .cancelled

def autoReason : String := "All agency readings match the declaration."

/-- The load status with its first letter in upper case; load statuses are ASCII texts. -/
def loadText (line : CargoLine) : String :=
  match line.loadStatus.toList with
  | [] => ""
  | c :: cs => String.ofList (c.toUpper :: cs)

/-- "20 ft · Laden" for containers, otherwise the declared description. -/
def cargoHeading (line : CargoLine) : String :=
  if line.category ≠ "Container" ∨ line.containerSize = "" then line.description
  else " · ".intercalate ([line.containerSize ++ " ft", loadText line].filter (· ≠ ""))

/-- The entry a row starts with: that of the report the form is based on, the declared
quantity where all agencies agree on it, or a blank one. -/
def initialEntry (base : Option PreviewReport) (row : ReadingRow) : FinalEntry :=
  match base.bind fun report => report.lines.find? fun entry =>
      entry.planId = row.plan.id && entry.lineId = row.line.id with
  | some previous => ⟨row.plan.id, row.line.id, plainQuantity previous.quantity, previous.reason⟩
  | none =>
      if row.agree then
        ⟨row.plan.id, row.line.id, plainQuantity (row.line.manifestQuantity.getD ""), autoReason⟩
      else ⟨row.plan.id, row.line.id, "", ""⟩

def initialDraft (rt : Runtime) (plans : List MeasurementPlan) (rows : List ReadingRow)
    (base : Option PreviewReport) : Draft where
  fingerprint := voyageInputFingerprint rt plans
  reason := (base.map PreviewReport.reason).getD ""
  lines := rows.map (initialEntry base)

/-- The entry of a draft for a row. -/
def Draft.entry (draft : Draft) (row : ReadingRow) : Option FinalEntry :=
  draft.lines.find? fun item => item.planId = row.plan.id && item.lineId = row.line.id

/-- The issues with the entry of a row. -/
def rowIssues (draft : Draft) (row : ReadingRow) : List String :=
  match draft.entry row with
  | none => ["Choose the final quantity for " ++ cargoHeading row.line ++ "."]
  | some entry =>
      if validFinalQuantity entry.quantity row.line.unit = false then
        ["Choose the final quantity for " ++ cargoHeading row.line ++ "."]
      else if trim entry.reason = "" then
        ["Explain the final quantity for " ++ cargoHeading row.line ++ "."]
      else []

def draftIssues (rows : List ReadingRow) (draft : Draft) : List String :=
  rows.flatMap (rowIssues draft) ++ if trim draft.reason = "" then ["Add a review note."] else []

/-- `Partial<FinalEntry>`, as the table gives it. -/
structure EntryPatch where
  quantity : Option String
  reason : Option String

/-- A change of the form: of the entries of a line, or of the review note. -/
inductive Edit where
  | line (planId lineId : String) (patch : EntryPatch)
  | note (reason : String)

/-- `updateLine`, and the change of the note. -/
def Draft.apply (draft : Draft) : Edit → Draft
  | .line planId lineId patch =>
      { draft with lines := draft.lines.map fun line =>
          if line.planId = planId && line.lineId = lineId then
            { line with
              quantity := patch.quantity.getD line.quantity
              reason := patch.reason.getD line.reason }
          else line }
  | .note reason => { draft with reason := reason }

/-- What `submit` passes of a draft. -/
def Draft.input (draft : Draft) : ReportInput where
  reason := trim draft.reason
  lines := draft.lines.map fun line =>
    { line with quantity := trim line.quantity, reason := trim line.reason }

section Form

variable (rt : Runtime) (texts : Texts)

/-- The rows of the form, one for each cargo line of the sheets. -/
def formRows (sheets : List MeasurementPlan) : List ReadingRow :=
  readingRows texts (agencyColumns texts sheets) sheets

/-- `submit`: the call it makes, where nothing stands against it. -/
def submitForm (actor : Option Actor) (editing : Bool) (plans : List MeasurementPlan)
    (draft : Draft) : Option Call :=
  let sheets := activeSheets plans
  match actor with
  | none => none
  | some actor =>
      if editing = false ∨ draft.fingerprint ≠ voyageInputFingerprint rt sheets ∨
          reconciliationIssues rt sheets ≠ [] ∨ draftIssues (formRows texts sheets) draft ≠ [] then
        none
      else some (.submitReport sheets draft.input actor)

/-- The draft was begun on the plans, with or without a report that was returned, and has
been edited since. -/
def BegunOn (plans : List MeasurementPlan) (draft : Draft) : Prop :=
  ∃ base edits, draft = List.foldl Draft.apply
    (initialDraft rt (activeSheets plans) (formRows texts (activeSheets plans)) base) edits

end Form

/-! ## What is accepted -/

/-- **The pattern of the form is what is read as a quantity.** -/
theorem validFinalQuantity_iff (quantity : String) (unit : CargoUnit) :
    validFinalQuantity quantity unit = true ↔ ∃ n, decimal (some quantity) 3 15 = some n ∧
      ¬(unit = .count ∧ n % 1000 ≠ 0) := by
  unfold validFinalQuantity
  rw [Bool.and_eq_true, fixedPattern_trim, Option.isSome_iff_exists, ← exists_and_right]
  refine exists_congr fun n => and_congr_right fun hn => ?_
  rw [decimal_some] at hn
  have hwhole : n % 1000 = 0 ↔ _ := readScaled_mod_eq_zero hn
  have hzeros : endsInZeros (trim quantity).toList = true ↔
      ∃ k, 1 ≤ k ∧ k ≤ 3 ∧ '.' :: List.replicate k '0' <:+ (trim quantity).toList := by
    simp only [endsInZeros, List.any_eq_true, List.isSuffixOf_iff_suffix]
    refine exists_congr fun k => ?_
    rw [← and_assoc]
    refine and_congr_left fun _ => ?_
    simp only [List.mem_cons, List.not_mem_nil, or_false]
    omega
  rw [Bool.or_eq_true, Bool.or_eq_true, decide_eq_true_eq, decide_eq_true_eq, hzeros, or_assoc,
    ← hwhole, not_and_or, not_not]

/-- A line of a report is made from an entry that is valid and has a reason. -/
theorem submittedLine_isOk_iff {input : ReportInput} {source : MeasurementPlan × CargoLine}
    {entry : FinalEntry} (hentry : (input.lines.find? fun item =>
      item.planId = source.1.id && item.lineId = source.2.id) = some entry) :
    (∃ line, submittedLine input source = .ok line) ↔
      validFinalQuantity entry.quantity source.2.unit = true ∧ trim entry.reason ≠ "" := by
  rw [validFinalQuantity_iff]
  constructor
  · rintro ⟨line, h⟩
    unfold submittedLine at h
    dsimp only at h
    rw [hentry, orRaise_of_some rfl, ok_bind] at h
    obtain ⟨n, hn, h⟩ := bind_eq_ok.mp h
    obtain ⟨_, hcount, h⟩ := bind_eq_ok.mp h
    obtain ⟨_, hreason, -⟩ := bind_eq_ok.mp h
    exact ⟨⟨n, orRaise_eq_ok.mp hn, raiseIf_eq_ok.mp hcount⟩, raiseIf_eq_ok.mp hreason⟩
  · rintro ⟨⟨n, hn, hcount⟩, hreason⟩
    unfold submittedLine
    dsimp only
    rw [hentry, orRaise_of_some rfl, ok_bind, orRaise_of_some hn, ok_bind,
      raiseIf_of_not hcount, ok_bind, raiseIf_of_not hreason, ok_bind]
    exact ⟨_, rfl⟩

/-! ## The entries of a draft -/

/-- The keys of the cargo lines of sheets. -/
def sourceKeys (sheets : List MeasurementPlan) : List (String × String) :=
  (sourceLines sheets).map fun source => (source.1.id, source.2.id)

/-- The keys of the entries of a draft. -/
def Draft.keys (draft : Draft) : List (String × String) :=
  draft.lines.map fun line => (line.planId, line.lineId)

theorem Draft.apply_keys (draft : Draft) (edit : Edit) : (draft.apply edit).keys = draft.keys := by
  cases edit with
  | note reason => rfl
  | line planId lineId patch =>
      unfold Draft.keys Draft.apply
      rw [List.map_map]
      apply List.map_congr_left
      intro line hline
      rw [Function.comp_apply]
      split <;> rfl

theorem Draft.apply_fingerprint (draft : Draft) (edit : Edit) :
    (draft.apply edit).fingerprint = draft.fingerprint := by
  cases edit <;> rfl

/-- However a draft is edited, it has the entries it began with. -/
theorem Draft.foldl_apply (draft : Draft) (edits : List Edit) :
    (edits.foldl Draft.apply draft).keys = draft.keys ∧
      (edits.foldl Draft.apply draft).fingerprint = draft.fingerprint := by
  induction edits generalizing draft with
  | nil => exact ⟨rfl, rfl⟩
  | cons edit edits ih =>
      obtain ⟨hkeys, hfingerprint⟩ := ih (draft.apply edit)
      rw [List.foldl_cons]
      exact ⟨hkeys.trans (draft.apply_keys edit),
        hfingerprint.trans (draft.apply_fingerprint edit)⟩

section Entries

variable {rt : Runtime} {texts : Texts} {plans plans' sheets sheets' : List MeasurementPlan}
  {draft : Draft}

/-- A form begins with one entry for each cargo line. -/
theorem keys_initialDraft (base : Option PreviewReport) :
    (initialDraft rt sheets (formRows texts sheets) base).keys = sourceKeys sheets := by
  have hentry : ∀ row : ReadingRow,
      ((initialEntry base row).planId, (initialEntry base row).lineId) =
        (row.plan.id, row.line.id) := by
    intro row
    unfold initialEntry
    split
    · rfl
    · split <;> rfl
  unfold Draft.keys initialDraft sourceKeys sourceLines formRows readingRows
  rw [List.map_map, List.map_flatMap, List.map_flatMap]
  apply List.flatMap_congr
  intro plan hplan
  rw [List.map_map, List.map_map]
  exact List.map_congr_left fun line hline => hentry _

theorem BegunOn.keys (h : BegunOn rt texts plans draft) :
    draft.keys = sourceKeys (activeSheets plans) := by
  obtain ⟨base, edits, rfl⟩ := h
  rw [(Draft.foldl_apply _ edits).1, keys_initialDraft]

theorem BegunOn.fingerprint (h : BegunOn rt texts plans draft) :
    draft.fingerprint = voyageInputFingerprint rt (activeSheets plans) := by
  obtain ⟨base, edits, rfl⟩ := h
  rw [(Draft.foldl_apply _ edits).2]
  rfl

theorem activePlans_activeSheets : activePlans rt (activeSheets plans) = activePlans rt plans := by
  unfold activePlans activeSheets
  rw [List.filter_filter]
  simp only [Bool.and_self]

theorem sourceKeys_active : (sourceKeys (activePlans rt plans)).Perm
    (sourceKeys (activeSheets plans)) := by
  have hperm : (activePlans rt plans).Perm (activeSheets plans) := List.perm_insertionSort _ _
  exact (hperm.flatMap_right _).map _

/-- Sheets with one fingerprint have the same cargo lines. -/
theorem sourceKeys_of_fingerprint (hinj : Function.Injective rt.stringify)
    (h : voyageInputFingerprint rt plans = voyageInputFingerprint rt plans') :
    sourceKeys (activePlans rt plans) = sourceKeys (activePlans rt plans') := by
  have hkeys : ∀ sheets, sourceKeys sheets = (sheets.map (planInputs rt)).flatMap fun inputs =>
      inputs.lines.map fun line => (inputs.id, line.id) := by
    intro sheets
    rw [sourceKeys, sourceLines, List.map_flatMap, List.flatMap_map]
    apply List.flatMap_congr
    intro plan hplan
    rw [List.map_map]
    rfl
  rw [hkeys, hkeys, hinj h]

/-- A draft whose fingerprint is current has one entry for each cargo line of the sheets. -/
theorem BegunOn.keys_current (hinj : Function.Injective rt.stringify)
    (h : BegunOn rt texts plans' draft)
    (hcurrent : draft.fingerprint = voyageInputFingerprint rt (activeSheets plans)) :
    draft.keys.Perm (sourceKeys (activePlans rt plans)) := by
  have hsame := sourceKeys_of_fingerprint hinj (h.fingerprint.symm.trans hcurrent)
  rw [activePlans_activeSheets, activePlans_activeSheets] at hsame
  rw [h.keys, ← hsame]
  exact sourceKeys_active.symm

end Entries

/-! ## Submitting -/

/-- The plans of a voyage, with keys that are told apart: no key of a plan has a colon. -/
structure VoyageSheets (callId : String) (plans : List MeasurementPlan) : Prop where
  named : callId ≠ ""
  voyage : ∀ plan ∈ plans, plan.callId = callId
  distinct : DistinctLines plans
  keys : ∀ plan ∈ plans, ':' ∉ plan.id.toList

/-- Keys without a colon are told apart when they are joined with one. -/
theorem lineKey_inj {planId planId' lineId lineId' : String} (h : ':' ∉ planId.toList)
    (h' : ':' ∉ planId'.toList) (hkey : lineKey planId lineId = lineKey planId' lineId') :
    planId = planId' ∧ lineId = lineId' := by
  have hchars : planId.toList ++ ':' :: lineId.toList = planId'.toList ++ ':' :: lineId'.toList := by
    have hlist := congrArg String.toList hkey
    simpa [lineKey, String.toList_append] using hlist
  have hsplit : ∀ {cs : List Char} (ds : List Char), ':' ∉ cs →
      (cs ++ ':' :: ds).takeWhile (· ≠ ':') = cs := by
    intro cs ds hcs
    rw [List.takeWhile_append_of_pos]
    · simp
    · exact fun c hc => decide_eq_true fun heq => hcs (heq ▸ hc)
  have hplan : planId.toList = planId'.toList := by
    rw [← hsplit lineId.toList h, hchars, hsplit lineId'.toList h']
  rw [hplan, List.append_cancel_left_eq, List.cons.injEq] at hchars
  exact ⟨String.toList_inj.mp hplan, String.toList_inj.mp hchars.2⟩

section Submitting

variable {rt : Runtime} {texts : Texts} {plans plans' : List MeasurementPlan} {draft : Draft}
  {callId : String}

theorem VoyageSheets.nodup_keys (h : VoyageSheets callId plans) :
    ((sourceKeys (activePlans rt plans)).map fun key => lineKey key.1 key.2).Nodup := by
  have hcolon : ∀ key ∈ sourceKeys (activePlans rt plans), ':' ∉ key.1.toList := by
    intro key hkey
    obtain ⟨source, hsource, rfl⟩ := List.mem_map.mp hkey
    obtain ⟨plan, hplan, hmem⟩ := List.mem_flatMap.mp hsource
    obtain ⟨line, -, rfl⟩ := List.mem_map.mp hmem
    exact h.keys plan (mem_activePlans.mp hplan).1
  refine List.Nodup.map_on (fun key hkey key' hkey' heq => ?_) h.distinct.active.sources
  obtain ⟨hplan, hline⟩ := lineKey_inj (hcolon key hkey) (hcolon key' hkey') heq
  exact Prod.ext hplan hline

/-- The entry a draft passes for a row is its entry, trimmed. -/
theorem find?_input (row : ReadingRow) :
    (draft.input.lines.find? fun item =>
      item.planId = row.plan.id && item.lineId = row.line.id) =
      (draft.entry row).map fun line =>
        { line with quantity := trim line.quantity, reason := trim line.reason } := by
  unfold Draft.input
  rw [List.find?_map]
  rfl

/-- Where a row has no issues, its line is taken. -/
theorem exists_submittedLine {row : ReadingRow} (h : rowIssues draft row = []) :
    ∃ line, submittedLine draft.input (row.plan, row.line) = .ok line := by
  unfold rowIssues at h
  split at h
  · cases h
  rename_i entry hentry
  split at h
  · cases h
  rename_i hvalid
  split at h
  · cases h
  rename_i hreason
  have hfound := @find?_input draft row
  rw [hentry] at hfound
  refine (submittedLine_isOk_iff hfound).mpr ⟨?_, ?_⟩
  · obtain ⟨n, hn, hcount⟩ := (validFinalQuantity_iff _ _).mp (Bool.not_eq_false _ ▸ hvalid)
    exact (validFinalQuantity_iff _ _).mpr ⟨n, (decimal_trim _ _ _).trans hn, hcount⟩
  · show trim (trim entry.reason) ≠ ""
    rw [trim_trim]
    exact hreason

/-- A form without issues can be submitted. -/
theorem submittable_of_form (hinj : Function.Injective rt.stringify)
    (hbegun : BegunOn rt texts plans' draft) (hsheets : VoyageSheets callId plans)
    (hcurrent : draft.fingerprint = voyageInputFingerprint rt (activeSheets plans))
    (hcomplete : reconciliationIssues rt (activeSheets plans) = [])
    (hissues : draftIssues (formRows texts (activeSheets plans)) draft = []) :
    ∃ lines, Submittable rt callId (activeSheets plans) draft.input lines := by
  obtain ⟨hrows, hnote⟩ := List.append_eq_nil_iff.mp hissues
  rw [List.flatMap_eq_nil_iff] at hrows
  have hkeys := hbegun.keys_current hinj hcurrent
  have hlines : ∀ source ∈ sourceLines (activePlans rt plans),
      ∃ line, submittedLine draft.input source = .ok line := by
    intro source hsource
    obtain ⟨plan, hplan, hmem⟩ := List.mem_flatMap.mp hsource
    obtain ⟨line, hline, rfl⟩ := List.mem_map.mp hmem
    have hsheet : plan ∈ activeSheets plans :=
      List.mem_filter.mpr ((mem_activePlans.mp hplan).imp_right decide_eq_true)
    exact exists_submittedLine (hrows _ (List.mem_flatMap.mpr
      ⟨plan, hsheet, List.mem_map_of_mem hline⟩))
  obtain ⟨lines, hlines⟩ := mapM_ok_of_forall hlines
  refine ⟨lines, reconciliationIssues_active.mpr hcomplete, fun plan hplan => ?_, ?_, ?_, ?_, ?_⟩
  · rw [activePlans_activeSheets] at hplan
    exact hsheets.voyage plan (mem_activePlans.mp hplan).1
  · intro hblank
    rw [show trim draft.input.reason = trim draft.reason from trim_trim _] at hblank
    rw [if_pos hblank] at hnote
    cases hnote
  · have hlength := hkeys.length_eq
    rw [Draft.keys, sourceKeys, List.length_map, List.length_map] at hlength
    rw [activePlans_activeSheets, ← hlength, Draft.input, List.length_map]
  · have hsame : (draft.input.lines.map fun line => lineKey line.planId line.lineId) =
        draft.keys.map fun key => lineKey key.1 key.2 := by
      rw [Draft.input, Draft.keys, List.map_map, List.map_map]
      rfl
    rw [hsame]
    exact (hkeys.map _).nodup_iff.mpr hsheets.nodup_keys
  · rw [activePlans_activeSheets]
    exact hlines

end Submitting

section Reporting

variable {rt : Runtime}

/-- The report says what the draft does: it has the note of the draft, line by line its entries,
and the fingerprint it was filled in for, as soon as the collation orders the keys of plans. -/
structure Reports (rt : Runtime) (plans : List MeasurementPlan) (draft : Draft)
    (report : PreviewReport) : Prop where
  status : reportStatus report = .submitted
  fingerprint : ∀ ids, OrderOn (fun a b => rt.localeLe a b = true) ids →
    (∀ plan ∈ plans, plan.id ∈ ids) → report.sourceFingerprint = draft.fingerprint
  reason : report.reason = trim draft.reason
  lines : List.Forall₂ (SaysEntry draft.input) (sourceLines (activePlans rt plans)) report.lines

/-- Sheets in their order stay in it. -/
theorem fingerprint_activePlans {ids : Set String} {plans : List MeasurementPlan}
    (hids : OrderOn (fun a b => rt.localeLe a b = true) ids) (hplans : ∀ plan ∈ plans, plan.id ∈ ids) :
    voyageInputFingerprint rt (activePlans rt plans) = voyageInputFingerprint rt plans := by
  have hsorted : (activePlans rt plans).Pairwise fun a b => rt.localeLe a.id b.id = true :=
    hids.pairwise_insertionSort fun plan hplan => hplans plan (List.mem_filter.mp hplan).1
  have hlive : (activePlans rt plans).filter (fun plan => plan.status ≠ .cancelled) =
      activePlans rt plans :=
    List.filter_eq_self.mpr fun plan hplan => decide_eq_true (mem_activePlans.mp hplan).2
  have hsame : activePlans rt (activePlans rt plans) = activePlans rt plans := by
    rw [activePlans, hlive]
    exact hsorted.insertionSort_eq
  rw [voyageInputFingerprint, voyageInputFingerprint, hsame]

/-- An accepted submission of a current draft leaves its report as the latest one of the
record. -/
theorem reports_of_submitReport {callId : String} {plans : List MeasurementPlan} {draft : Draft}
    {actor : Actor} {moment : Moment}
    {saved after : CloseoutRecord} {report : PreviewReport}
    (hcurrent : draft.fingerprint = voyageInputFingerprint rt (activeSheets plans))
    (h : submitReport rt moment callId (activeSheets plans) draft.input actor saved =
      .ok (report, after)) :
    Reports rt plans draft report ∧ after.reports.getLast? = some report := by
  have hnote : trim draft.input.reason = trim draft.reason := trim_trim _
  have hfingerprint : ∀ ids, OrderOn (fun a b => rt.localeLe a b = true) ids →
      (∀ plan ∈ plans, plan.id ∈ ids) →
      voyageInputFingerprint rt (activePlans rt (activeSheets plans)) = draft.fingerprint := by
    intro ids hids hplans
    have hsheets : ∀ plan ∈ activeSheets plans, plan.id ∈ ids := fun plan hplan =>
      hplans plan (List.mem_filter.mp hplan).1
    rw [hcurrent, fingerprint_activePlans hids hsheets]
  obtain ⟨lines, hlines, hcases⟩ := submitReport_cases h
  have hentries : List.Forall₂ (SaysEntry draft.input) (sourceLines (activePlans rt plans)) lines := by
    rw [← activePlans_activeSheets]
    exact (mapM_eq_ok.mp hlines.lines).imp fun _ _ => saysEntry_of_submittedLine
  obtain ⟨hrepeated, rfl⟩ | ⟨-, rfl, rfl⟩ := hcases
  · obtain ⟨hlast, hstatus, hsource, hreason, rfl⟩ := repeatedReport_eq_some.mp hrepeated
    exact ⟨⟨hstatus, fun ids hids hplans => hsource.trans (hfingerprint ids hids hplans),
      hreason.trans hnote, hentries⟩, hlast⟩
  · exact ⟨⟨rfl, hfingerprint, hnote, hentries⟩, List.getLast?_concat⟩

end Reporting

/-- **A complete form is accepted.**  What the form takes for a quantity is what is read as
one; and a draft begun on plans, edited in any way, still current and without issues is
submitted, and wherever the previews can be read and written a report comes of it that says
what the draft does and is stored as the latest one of the voyage. -/
theorem readings_form (rt : Runtime) (texts : Texts) (hinj : Function.Injective rt.stringify) :
    (∀ quantity unit, validFinalQuantity quantity unit = true ↔
      ∃ n, decimal (some quantity) 3 15 = some n ∧ ¬(unit = .count ∧ n % 1000 ≠ 0)) ∧
    ∀ callId plans plans' draft, VoyageSheets callId plans → BegunOn rt texts plans' draft →
      draft.fingerprint = voyageInputFingerprint rt (activeSheets plans) →
      reconciliationIssues rt (activeSheets plans) = [] →
      draftIssues (formRows texts (activeSheets plans)) draft = [] →
      ∀ actor, submitForm rt texts (some actor) true plans draft =
          some (.submitReport (activeSheets plans) draft.input actor) ∧
        ∀ orgId moment storage, (readPreviews rt orgId moment.readable storage).error = none →
          moment.writeError = none →
          ∃ after report key, perform rt storage
              ⟨orgId, callId, .submitReport (activeSheets plans) draft.input actor, moment⟩ =
            (after, .ok (.report report)) ∧
            Reports rt plans draft report ∧ closeoutStorageKey rt orgId = some key ∧
            (after.record key callId).reports.getLast? = some report := by
  refine ⟨validFinalQuantity_iff, ?_⟩
  intro callId plans plans' draft hsheets hbegun hcurrent hcomplete hissues actor
  constructor
  · have hgate : ¬(true = false ∨
        draft.fingerprint ≠ voyageInputFingerprint rt (activeSheets plans) ∨
        reconciliationIssues rt (activeSheets plans) ≠ [] ∨
        draftIssues (formRows texts (activeSheets plans)) draft ≠ []) := by
      simp [hcurrent, hcomplete, hissues]
    exact if_neg hgate
  · intro orgId moment storage hreadable hwritable
    obtain ⟨lines, hlines⟩ :=
      submittable_of_form hinj hbegun hsheets hcurrent hcomplete hissues
    have hchange : ∀ saved, ∃ report updated, changeOf rt moment callId
        (.submitReport (activeSheets plans) draft.input actor) saved =
          .ok (.report report, updated) := by
      intro saved
      have hsubmit := @submitReport_of_submittable rt moment saved actor _ _ _ _ hlines
      unfold changeOf
      dsimp only
      rw [hsubmit]
      exact ⟨_, _, rfl⟩
    obtain ⟨report, updated, hchange⟩ := hchange _
    obtain ⟨after, hafter⟩ := mutate_ok hreadable hsheets.named hwritable hchange
    -- What was written is the change of the record that was found there.
    have hperform : perform rt storage
        ⟨orgId, callId, .submitReport (activeSheets plans) draft.input actor, moment⟩ =
          (after, .ok (.report report)) := hafter
    obtain ⟨org, key, record, hwritten⟩ := written_of_perform hperform
    obtain ⟨submitted, hsubmit, hreport⟩ := map_eq_ok_iff.mp hwritten.change
    cases hreport
    obtain ⟨hreports, hlast⟩ := reports_of_submitReport hcurrent hsubmit
    exact ⟨after, report, key, hperform, hreports, hwritten.storageKey,
      hwritten.record ▸ hlast⟩

namespace Sample

def texts : Texts := ⟨fun a b => decide (a ≤ b), String.toLower⟩

/-- The form of the sample plan, with the quantity, its reason and the note put in. -/
def finalDraft : Draft :=
  [.line "plan-1" "line-1" ⟨some " 112.50", none⟩, .note "Counted again",
    .line "plan-1" "line-1" ⟨none, some "The surveyor's figure"⟩].foldl Draft.apply
    (initialDraft printer (activeSheets [plan]) (formRows texts (activeSheets [plan])) none)

end Sample

/-- The form of the sample plan is accepted, and the note of its draft is stored. -/
theorem readings_form_sample : ∃ after report key, perform Sample.printer Sample.start
    ⟨some "org-1", "call-1",
      .submitReport (activeSheets [Sample.plan]) Sample.finalDraft.input Sample.preparer,
      Sample.moment 0⟩ = (after, .ok (.report report)) ∧ report.reason = "Counted again" ∧
    (after.record key "call-1").reports.getLast? = some report := by
  obtain ⟨-, haccepted⟩ := readings_form Sample.printer Sample.texts Sample.printer_injective
  have hsheets : VoyageSheets "call-1" [Sample.plan] := by
    refine ⟨by decide, ?_, ⟨by decide, ?_⟩, ?_⟩ <;>
    · intro plan hplan
      rw [List.mem_singleton.mp hplan]
      decide
  have hbegun : BegunOn Sample.printer Sample.texts [Sample.plan] Sample.finalDraft :=
    ⟨none, _, rfl⟩
  obtain ⟨-, hperform⟩ := haccepted _ _ _ _ hsheets hbegun hbegun.fingerprint
    (by decide +kernel) (by decide +kernel) Sample.preparer
  obtain ⟨after, report, key, hok, hreports, -, hstored⟩ :=
    hperform (some "org-1") (Sample.moment 0) Sample.start rfl rfl
  exact ⟨after, report, key, hok, hreports.reason.trans (by decide +kernel), hstored⟩

end VesselCaller.Closeout
